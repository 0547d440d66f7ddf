/-! Cutting a text by positions that are counted in bytes. Only positions between two characters can be
cut at. Those that belong to indices of characters are such, and they keep the order of the indices. -/

namespace TapeMachine.Text

/-- The positions at which characters begin, when the first of them begins at `start`. -/
def beginningsFrom : Nat → List Char → List Nat
  | _, [] => []
  | start, c :: cs => start :: beginningsFrom (start + c.utf8Size) cs

/-- The position at which the character with this index begins; behind the last one, the end of the
text. -/
def byteIndex (s : String) (index : Nat) : Nat :=
  (beginningsFrom 0 s.toList)[index]?.getD s.utf8ByteSize

/-- The part of a text between two positions. There is none when they are in the wrong order, or when
one of them is inside a character or beyond the text. -/
def slice? (s : String) (start stop : Nat) : Option String :=
  if h : String.Pos.Raw.IsValid s ⟨start⟩ ∧ String.Pos.Raw.IsValid s ⟨stop⟩ ∧ start ≤ stop then
    some (String.extract (s.pos ⟨start⟩ h.1) (s.pos ⟨stop⟩ h.2.1))
  else none

/-- What is cut out lies between two characters on either side. -/
theorem between_of_slice? {s part : String} {start stop : Nat} (h : slice? s start stop = some part) :
    String.Pos.Raw.IsValid s ⟨start⟩ ∧ String.Pos.Raw.IsValid s ⟨stop⟩ ∧ start ≤ stop := by
  unfold slice? at h
  split at h
  · assumption
  · cases h

theorem utf8ByteSize_ofList_cons (c : Char) (cs : List Char) :
    (String.ofList (c :: cs)).utf8ByteSize = c.utf8Size + (String.ofList cs).utf8ByteSize := by
  rw [← List.singleton_append, String.ofList_append, String.utf8ByteSize_append,
    ← String.singleton_eq_ofList, String.utf8ByteSize_singleton]

theorem getD_beginningsFrom (cs : List Char) (start i : Nat) :
    (beginningsFrom start cs)[i]?.getD (start + (String.ofList cs).utf8ByteSize) =
      start + (String.ofList (cs.take i)).utf8ByteSize := by
  induction cs generalizing start i with
  | nil => simp [beginningsFrom]
  | cons c cs ih =>
    cases i with
    | zero => simp [beginningsFrom]
    | succ i =>
      have h := ih (start + c.utf8Size) i
      simp only [beginningsFrom, List.getElem?_cons_succ, List.take_succ_cons, utf8ByteSize_ofList_cons,
        ← Nat.add_assoc, h]

theorem byteIndex_eq (s : String) (i : Nat) :
    byteIndex s i = (String.ofList (s.toList.take i)).utf8ByteSize := by
  have h := getD_beginningsFrom s.toList 0 i
  rwa [String.ofList_toList, Nat.zero_add, Nat.zero_add] at h

/-- An index beyond the text has the position of its end. -/
theorem byteIndex_min (s : String) (i : Nat) : byteIndex s (min i s.length) = byteIndex s i := by
  rw [byteIndex_eq, byteIndex_eq, ← String.length_toList, ← List.take_eq_take_min]

theorem isValid_utf8ByteSize (s t : String) : String.Pos.Raw.IsValid (s ++ t) ⟨s.utf8ByteSize⟩ :=
  String.Pos.Raw.isValid_rawEndPos.append_right t

theorem slice?_append (s t u : String) :
    slice? (s ++ t ++ u) s.utf8ByteSize (s ++ t).utf8ByteSize = some t := by
  have hstart : String.Pos.Raw.IsValid (s ++ t ++ u) ⟨s.utf8ByteSize⟩ :=
    (isValid_utf8ByteSize s t).append_right u
  have hstop : String.Pos.Raw.IsValid (s ++ t ++ u) ⟨(s ++ t).utf8ByteSize⟩ := isValid_utf8ByteSize (s ++ t) u
  have hle : s.utf8ByteSize ≤ (s ++ t).utf8ByteSize := by
    rw [String.utf8ByteSize_append]
    exact Nat.le_add_right _ _
  have hcut : (s.toByteArray ++ t.toByteArray ++ u.toByteArray).extract s.toByteArray.size
      (s.toByteArray ++ t.toByteArray).size = t.toByteArray := by
    rw [ByteArray.extract_append_size_left, ByteArray.extract_append_eq_right rfl ByteArray.size_append]
  rw [slice?, dif_pos ⟨hstart, hstop, hle⟩, Option.some.injEq, ← String.toByteArray_inj,
    String.toByteArray_extract]
  simpa only [String.offset_pos, String.toByteArray_append, ← String.size_toByteArray] using hcut

/-- What is cut out between the positions of two indices are the characters in between. -/
theorem slice?_byteIndex (s : String) {i j : Nat} (h : i ≤ j) :
    slice? s (byteIndex s i) (byteIndex s j) = some (String.ofList ((s.toList.take j).drop i)) := by
  have hfirst : s.toList.take j = s.toList.take i ++ (s.toList.take j).drop i := by
    conv => lhs; rw [← List.take_append_drop i (s.toList.take j), List.take_take, Nat.min_eq_left h]
  have hall : s = String.ofList (s.toList.take i) ++ String.ofList ((s.toList.take j).drop i) ++
      String.ofList (s.toList.drop j) := by
    rw [← String.ofList_append, ← hfirst, ← String.ofList_append, List.take_append_drop, String.ofList_toList]
  have hcut := slice?_append (String.ofList (s.toList.take i)) (String.ofList ((s.toList.take j).drop i))
    (String.ofList (s.toList.drop j))
  rwa [← hall, ← String.ofList_append, ← hfirst, ← byteIndex_eq, ← byteIndex_eq] at hcut

end TapeMachine.Text
