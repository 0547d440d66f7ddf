import TapeMachine.Proofs.Cell

/-! The sparse tape as a total map. Operations on a tape leave a history of updates, each made at one address:
that of the exact sum of the moves before it, as a word. A cell holds what the updates at its address make of
0, one after the other, and the cells that are stored are those of the history. Neither is said by way of a
tape. `Tape.Keeps` is what ties one to its history, and every operation preserves it. -/

namespace TapeMachine

inductive Update where
  | write (value : Int64)
  | adjust (delta : Int64)
deriving DecidableEq, Repr

inductive Operation where
  | update (u : Update)
  | move (delta : Int64)
deriving DecidableEq, Repr

namespace Update

def apply : Update → Tape → Tape
  | write value, t => t.write value
  | adjust delta, t => t.adjust delta

/-- The number in a single cell after an update. What is written is stored as it is. A sum is brought back to
64 bits, and for a byte cell then to its residue modulo 256. -/
def number (w : CellWidth) (c : ℤ) : Update → ℤ
  | write value => value.toInt
  | adjust delta =>
    match w with
    | .byte => (c + delta.toInt).bmod (2 ^ 64) % 256
    | .unbounded => (c + delta.toInt).bmod (2 ^ 64)

end Update

namespace Operation

def apply : Operation → Tape → Tape
  | update u, t => u.apply t
  | move delta, t => t.move delta

def stride : Operation → ℤ
  | update _ => 0
  | move delta => delta.toInt

end Operation

def Tape.applyAll (t : Tape) (ops : List Operation) : Tape := ops.foldl (fun t op => op.apply t) t

/-- The updates among operations with the addresses at which they are made, if the moves before come to `z`. -/
def history : ℤ → List Operation → List (Int64 × Update)
  | _, [] => []
  | z, .update u :: ops => (Int64.ofInt z, u) :: history z ops
  | z, .move delta :: ops => history (z + delta.toInt) ops

def updatesAt (a : Int64) (h : List (Int64 × Update)) : List Update :=
  (h.filter fun x => x.1 = a).map Prod.snd

theorem updatesAt_self (a : Int64) (h : List (Int64 × Update)) (u : Update) :
    updatesAt a (h ++ [(a, u)]) = updatesAt a h ++ [u] := by
  simp [updatesAt]

theorem updatesAt_of_ne {a b : Int64} (hab : a ≠ b) (h : List (Int64 × Update)) (u : Update) :
    updatesAt a (h ++ [(b, u)]) = updatesAt a h := by
  simp [updatesAt, hab.symm]

theorem Update.number_adjust (w : CellWidth) (v delta : Int64) :
    number w v.toInt (.adjust delta) = (w.apply (v + delta)).toInt := by
  cases w with
  | byte =>
    rw [toInt_byteOf, Int64.toInt_add]
    rfl
  | unbounded => exact (Int64.toInt_add v delta).symm

/-- An update stores what becomes of a single cell that holds the same. -/
theorem Update.exists_write (u : Update) (t : Tape) :
    ∃ v, u.apply t = t.write v ∧ v.toInt = u.number t.width t.read.toInt := by
  cases u with
  | write value => exact ⟨value, rfl, rfl⟩
  | adjust delta => exact ⟨_, rfl, (number_adjust _ _ _).symm⟩

namespace Tape

/-- A cell that is stored counts once. -/
theorem touched_eq_card {t : Tape} {s : Finset Int64} (h : ∀ a, a ∈ t.cells ↔ a ∈ s) : t.touched = s.card := by
  have hs : t.cells.keys.toFinset = s := by
    ext a
    rw [List.mem_toFinset, Std.ExtTreeMap.mem_keys, h]
  rw [← hs, List.toFinset_card_of_nodup Std.ExtTreeMap.nodup_keys, Std.ExtTreeMap.length_keys, touched]

/-- A tape after moves that come to `z` and these updates. -/
structure Keeps (w : CellWidth) (z : ℤ) (h : List (Int64 × Update)) (t : Tape) : Prop where
  width : t.width = w
  pointer : t.pointer = Int64.ofInt z
  get : ∀ a, (t.get a).toInt = (updatesAt a h).foldl (Update.number w) 0
  mem : ∀ a, a ∈ t.cells ↔ a ∈ h.map Prod.fst

namespace Keeps

variable {w : CellWidth} {z : ℤ} {h : List (Int64 × Update)} {t : Tape}

theorem fresh (w : CellWidth) : Keeps w 0 [] { width := w } where
  width := rfl
  pointer := rfl
  get a := by simp [Tape.get, updatesAt]
  mem a := by simp

theorem move (hk : Keeps w z h t) (delta : Int64) : Keeps w (z + delta.toInt) h (t.move delta) where
  width := hk.width
  pointer := by rw [Tape.move, hk.pointer, Int64.ofInt_add, Int64.ofInt_toInt]
  get := hk.get
  mem := hk.mem

theorem write (hk : Keeps w z h t) {u : Update} {v : Int64} (hv : v.toInt = u.number w t.read.toInt) :
    Keeps w z (h ++ [(Int64.ofInt z, u)]) (t.write v) where
  width := hk.width
  pointer := hk.pointer
  get a := by
    rw [get_write, ← hk.pointer]
    by_cases ha : a = t.pointer
    · subst ha
      rw [if_pos rfl, hv, updatesAt_self, List.foldl_append, ← hk.get]
      rfl
    · rw [if_neg ha, hk.get, updatesAt_of_ne ha]
  mem a := by
    rw [mem_write, hk.mem, hk.pointer, List.map_append, List.mem_append, or_comm]
    exact or_congr_right List.mem_singleton.symm

theorem update (hk : Keeps w z h t) (u : Update) : Keeps w z (h ++ [(Int64.ofInt z, u)]) (u.apply t) := by
  obtain ⟨v, happly, hv⟩ := u.exists_write t
  rw [hk.width] at hv
  rw [happly]
  exact hk.write hv

/-- The induction over the operations. The history so far and the sum so far vary, as each operation adds to
one of them. -/
theorem applyAll (ops : List Operation) : ∀ {z : ℤ} {h : List (Int64 × Update)} {t : Tape}, Keeps w z h t →
    Keeps w (z + (ops.map Operation.stride).sum) (h ++ history z ops) (t.applyAll ops) := by
  induction ops with
  | nil =>
    intro z h t hk
    rwa [history, List.append_nil, List.map_nil, List.sum_nil, add_zero]
  | cons op ops ih =>
    intro z h t hk
    rw [List.map_cons, List.sum_cons, ← add_assoc]
    cases op with
    | move delta => exact ih (hk.move delta)
    | update u =>
      have hrest := ih (hk.update u)
      rw [List.append_assoc] at hrest
      rwa [Operation.stride, add_zero]

end Keeps

end Tape

/-- The tape is a total map that counts the cells touched. Take any writes, additions and moves, in any order,
from a new tape of either width. The pointer is the sum of the moves, brought back to 64 bits. Any address,
touched or not, holds what the updates made there make of a single cell that starts at 0. And the number of
cells touched is that of the addresses at which an update was made, whatever it stored. -/
theorem tape_is_total_map (w : CellWidth) (ops : List Operation) :
    let t := Tape.applyAll { width := w } ops
    t.pointer.toInt = (ops.map Operation.stride).sum.bmod (2 ^ 64) ∧
    (∀ a, (t.get a).toInt = (updatesAt a (history 0 ops)).foldl (Update.number w) 0) ∧
    t.touched = ((history 0 ops).map Prod.fst).toFinset.card := by
  have hk := (Tape.Keeps.fresh w).applyAll ops
  rw [zero_add, List.nil_append] at hk
  refine ⟨?_, hk.get, Tape.touched_eq_card fun a => ?_⟩
  · rw [hk.pointer]
    exact Int64.toInt_ofInt
  · rw [hk.mem, List.mem_toFinset]

/-- A stored 0 is counted, and the address that is come back to round the end of the words is counted once. -/
example :
    let t := Tape.applyAll {} [.update (.write 0), .move Int64.maxValue, .update (.write 0),
      .move Int64.maxValue, .move 2, .update (.adjust (-1))]
    t.touched = 2 ∧ t.pointer = 0 ∧ t.read = 255 := by decide

end TapeMachine
