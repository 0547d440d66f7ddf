import Mathlib.Tactic
import TapeMachine.Config

/-! Clauses of a configuration: the keys of its sections with their values, and whatever is no section. A
clause is fine if its key is one of the section and its value is one that the key may have. Reading
complains of every other one, and says where and what is wrong with it. -/

namespace TapeMachine.Config

inductive Section where
  | machine
  | limits
deriving DecidableEq, Repr

def Section.name : Section → String
  | machine => "machine"
  | limits => "limits"

def Section.keys : Section → List String
  | machine => ["cell_width", "eof"]
  | limits => ["timeout_ms", "max_steps"]

def widthLabel : CellWidth → String
  | .byte => "byte"
  | .unbounded => "unbounded"

def eofLabel : EofPolicy → String
  | .zero => "zero"
  | .unchanged => "unchanged"
  | .error => "error"

/-- A name is given as a string, or as the only key of a table that holds nothing under it. -/
inductive Names (name : String) : Toml.Value → Prop
  | string : Names name (.string name)
  | emptyTable : Names name (.table [(name, .table [])])
  | emptyArray : Names name (.table [(name, .array [])])

/-- A count is an integer that is not negative. -/
def Counts (v : Toml.Value) (n : Option ℕ) : Prop := ∃ k : ℕ, v = .integer k ∧ n = some k

/-- What a document says one by one: that there is something which is no section, or which value a key of a
section has. -/
inductive Clause where
  | stray (name : String)
  | entry (s : Section) (key : String) (v : Toml.Value)

/-- A value that a key of a section may have. -/
inductive Admissible : Section → String → Toml.Value → Prop
  | width {v : Toml.Value} (w : CellWidth) (h : Names (widthLabel w) v) : Admissible .machine "cell_width" v
  | eof {v : Toml.Value} (p : EofPolicy) (h : Names (eofLabel p) v) : Admissible .machine "eof" v
  | timeout (n : ℕ) : Admissible .limits "timeout_ms" (.integer n)
  | maxSteps (n : ℕ) : Admissible .limits "max_steps" (.integer n)

/-- What is wrong with a value that is to name one of several choices, and where in the value. -/
inductive Misnames (names : List String) : Toml.Value → Complaint → Prop
  | string {name : String} (h : name ∉ names) :
    Misnames names (.string name) ⟨[], .unknownVariant name names⟩
  | key {name : String} {content : Toml.Value} (h : name ∉ names) :
    Misnames names (.table [(name, content)]) ⟨[.key name], .unknownVariant name names⟩
  | content {name : String} {content : Toml.Value} (h : name ∈ names) (ht : content ≠ .table [])
    (ha : content ≠ .array []) :
    Misnames names (.table [(name, content)]) ⟨[.key name], .heldContent (describe content)⟩
  | size {es : Toml.Table} (h : es.length ≠ 1) : Misnames names (.table es) ⟨[], .keyCount es.length⟩
  | kind {v : Toml.Value} (hs : ∀ name, v ≠ .string name) (ht : ∀ es, v ≠ .table es) :
    Misnames names v ⟨[], .noChoice (describe v)⟩

/-- What is wrong with a value that is to be a count. -/
inductive Miscounts : Toml.Value → Complaint → Prop
  | negative {n : ℤ} (h : n < 0) :
    Miscounts (.integer n) ⟨[], .invalidValue ("integer `" ++ toString n ++ "`") "u64"⟩
  | kind {v : Toml.Value} (h : ∀ n, v ≠ .integer n) : Miscounts v ⟨[], .invalidType (describe v) "u64"⟩

/-- What is wrong with a clause, and at which key of the document. -/
inductive Clause.Offends : Clause → Complaint → Prop
  | stray {name : String} :
    Offends (.stray name) ⟨[.key name], .unknownField name ["machine", "limits"]⟩
  | key {s : Section} {key : String} {v : Toml.Value} (h : key ∉ s.keys) :
    Offends (.entry s key v) ⟨[.key s.name, .key key], .unknownField key s.keys⟩
  | width {v : Toml.Value} {c : Complaint} (h : Misnames ["byte", "unbounded"] v c) :
    Offends (.entry .machine "cell_width" v) ⟨.key "machine" :: .key "cell_width" :: c.path, c.problem⟩
  | eof {v : Toml.Value} {c : Complaint} (h : Misnames ["zero", "unchanged", "error"] v c) :
    Offends (.entry .machine "eof" v) ⟨.key "machine" :: .key "eof" :: c.path, c.problem⟩
  | count {key : String} {v : Toml.Value} {c : Complaint} (hkey : key ∈ Section.limits.keys)
    (h : Miscounts v c) : Offends (.entry .limits key v) ⟨.key "limits" :: .key key :: c.path, c.problem⟩

/-- A clause that has nothing wrong with it. -/
def Clause.Fine : Clause → Prop
  | stray _ => False
  | entry s key v => Admissible s key v

/-! Values. -/

theorem widthLabel_injective : Function.Injective widthLabel := by
  intro a b h
  cases a <;> cases b <;> simp [widthLabel] at h <;> rfl

theorem eofLabel_injective : Function.Injective eofLabel := by
  intro a b h
  cases a <;> cases b <;> simp [eofLabel] at h <;> rfl

theorem Names.unique {a b : String} {v : Toml.Value} (ha : Names a v) (hb : Names b v) : a = b := by
  cases ha <;> cases hb <;> rfl

theorem Counts.unique {v : Toml.Value} {a b : Option ℕ} (ha : Counts v a) (hb : Counts v b) : a = b := by
  obtain ⟨m, rfl, rfl⟩ := ha
  obtain ⟨n, hn, rfl⟩ := hb
  rw [Int.ofNat_inj.1 (Toml.Value.integer.inj hn)]

section choice

variable {α : Type} {choices : List (String × α)}

/-- A name is that of one of the choices, or of none. -/
theorem choose_cases (choices : List (String × α)) (name : String) :
    (∃ x ∈ choices, x.1 = name ∧ choose choices name = .ok x.2) ∨
    name ∉ (choices.map fun x => x.1) ∧
      choose choices name = .error (.unknownVariant name (choices.map fun x => x.1)) := by
  unfold choose
  cases hf : choices.find? (fun c => c.1 = name) with
  | some x => exact .inl ⟨x, List.mem_of_find?_eq_some hf, by simpa using List.find?_some hf, rfl⟩
  | none =>
    refine .inr ⟨fun hmem => ?_, rfl⟩
    obtain ⟨x, hx, rfl⟩ := List.mem_map.1 hmem
    simpa using List.find?_eq_none.1 hf x hx

/-- A value names one of the choices, which is then read, or there is something wrong with it. -/
theorem readChoice_cases (choices : List (String × α)) (v : Toml.Value) :
    (∃ x ∈ choices, Names x.1 v ∧ readChoice choices v = .ok x.2) ∨
    ∃ c, Misnames (choices.map fun x => x.1) v c ∧ readChoice choices v = .error c := by
  unfold readChoice
  split
  · rename_i name
    rcases choose_cases choices name with ⟨x, hx, rfl, hc⟩ | ⟨hnot, hc⟩ <;> rw [hc]
    · exact .inl ⟨x, hx, .string, rfl⟩
    · exact .inr ⟨_, .string hnot, rfl⟩
  · rename_i name content
    rcases choose_cases choices name with ⟨x, hx, rfl, hc⟩ | ⟨hnot, hc⟩ <;> rw [hc]
    · by_cases ht : content = .table []
      · subst ht
        exact .inl ⟨x, hx, .emptyTable, rfl⟩
      by_cases ha : content = .array []
      · subst ha
        exact .inl ⟨x, hx, .emptyArray, rfl⟩
      refine .inr ⟨_, .content (List.mem_map_of_mem hx) ht ha, ?_⟩
      split <;> simp_all
    · exact .inr ⟨_, .key hnot, rfl⟩
  · rename_i es hes
    refine .inr ⟨_, .size fun hlen => ?_, rfl⟩
    obtain ⟨⟨name, content⟩, rfl⟩ := List.length_eq_one_iff.1 hlen
    exact hes name content rfl
  · rename_i hs _ ht
    exact .inr ⟨_, .kind hs ht, rfl⟩

end choice

theorem readWidth_cases (v : Toml.Value) :
    (∃ w, Names (widthLabel w) v ∧ readChoice widthChoices v = .ok w) ∨
    ∃ c, Misnames ["byte", "unbounded"] v c ∧ readChoice widthChoices v = .error c := by
  refine (readChoice_cases widthChoices v).imp_left ?_
  rintro ⟨x, hx, hn, hr⟩
  have hlabel : ∀ x ∈ widthChoices, x.1 = widthLabel x.2 := by decide
  exact ⟨x.2, hlabel x hx ▸ hn, hr⟩

theorem readEof_cases (v : Toml.Value) :
    (∃ p, Names (eofLabel p) v ∧ readChoice eofChoices v = .ok p) ∨
    ∃ c, Misnames ["zero", "unchanged", "error"] v c ∧ readChoice eofChoices v = .error c := by
  refine (readChoice_cases eofChoices v).imp_left ?_
  rintro ⟨x, hx, hn, hr⟩
  have hlabel : ∀ x ∈ eofChoices, x.1 = eofLabel x.2 := by decide
  exact ⟨x.2, hlabel x hx ▸ hn, hr⟩

theorem Misnames.not_mem {names : List String} {name : String} {v : Toml.Value} {c : Complaint}
    (h : Misnames names v c) (hn : Names name v) : name ∉ names := by
  cases h with
  | string h | key h => cases hn <;> exact h
  | content h ht ha =>
    cases hn with
    | emptyTable => exact absurd rfl ht
    | emptyArray => exact absurd rfl ha
  | size h => cases hn <;> exact absurd rfl h
  | kind hs ht =>
    cases hn with
    | string => exact absurd rfl (hs _)
    | emptyTable | emptyArray => exact absurd rfl (ht _)

theorem Misnames.unique {names : List String} {v : Toml.Value} {c c' : Complaint} (h : Misnames names v c)
    (h' : Misnames names v c') : c = c' := by
  cases h <;> cases h' <;> simp_all

theorem Miscounts.unique {v : Toml.Value} {c c' : Complaint} (h : Miscounts v c) (h' : Miscounts v c') :
    c = c' := by
  cases h <;> cases h' <;> simp_all

theorem readCount_cases (v : Toml.Value) :
    (∃ n : ℕ, v = .integer n ∧ readCount v = .ok n) ∨ ∃ c, Miscounts v c ∧ readCount v = .error c := by
  cases v with
  | integer n =>
    rcases Int.lt_or_le n 0 with hn | hn
    · exact .inr ⟨_, .negative hn, if_pos hn⟩
    · refine .inl ⟨n.toNat, by rw [Int.toNat_of_nonneg hn], ?_⟩
      exact if_neg (Int.not_lt.2 hn)
  | _ => exact .inr ⟨_, .kind (by simp), rfl⟩

/-! Entries of a section. -/

/-- The error that something comes to. -/
def errorOf {ε α : Type} : Except ε α → Option ε
  | .error e => some e
  | .ok _ => none

theorem errorOf_map {ε α β : Type} (f : α → β) (x : Except ε α) : errorOf (x.map f) = errorOf x := by
  cases x <;> rfl

theorem errorOf_mapError {ε ε' α : Type} (f : ε → ε') (x : Except ε α) :
    errorOf (x.mapError f) = (errorOf x).map f := by
  cases x <;> rfl

/-- A section with two keys sets the field of one of them. -/
theorem setEntry_pair {α : Type} (f g : Field α) (a : α) (key : String) (v : Toml.Value) :
    setEntry [f, g] a (key, v) =
      if key = f.key then (f.set v a).mapError (Complaint.under (.key key))
      else if key = g.key then (g.set v a).mapError (Complaint.under (.key key))
      else .error ⟨[.key key], .unknownField key [f.key, g.key]⟩ := by
  split_ifs with hf hg
  · simp [setEntry, hf]
  · simp [setEntry, hg, Ne.symm (hg ▸ hf)]
  · simp [setEntry, Ne.symm hf, Ne.symm hg]

theorem setEntry_machine (m : Mode) (key : String) (v : Toml.Value) :
    setEntry machineFields m (key, v) =
      if key = "cell_width" then
        ((readChoice widthChoices v).map fun w => { m with width := w }).mapError (Complaint.under (.key key))
      else if key = "eof" then
        ((readChoice eofChoices v).map fun p => { m with eof := p }).mapError (Complaint.under (.key key))
      else .error ⟨[.key key], .unknownField key Section.machine.keys⟩ := setEntry_pair _ _ m key v

theorem setEntry_limits (l : Limits) (key : String) (v : Toml.Value) :
    setEntry limitFields l (key, v) =
      if key = "timeout_ms" then
        ((readCount v).map fun n => { l with timeoutMs := some n }).mapError (Complaint.under (.key key))
      else if key = "max_steps" then
        ((readCount v).map fun n => { l with maxSteps := some n }).mapError (Complaint.under (.key key))
      else .error ⟨[.key key], .unknownField key Section.limits.keys⟩ := setEntry_pair _ _ l key v

theorem setEntry_sections (c : Config) (name : String) (v : Toml.Value) :
    setEntry sections c (name, v) =
      if name = "machine" then
        ((readSection "MachineConfig" machineFields {} v).map fun m => { c with machine := m }).mapError
          (Complaint.under (.key name))
      else if name = "limits" then
        ((readSection "Limits" limitFields {} v).map fun l => { c with limits := l }).mapError
          (Complaint.under (.key name))
      else .error ⟨[.key name], .unknownField name ["machine", "limits"]⟩ := setEntry_pair _ _ c name v

/-- What reading a clause has to complain about. -/
def Clause.complaint? : Clause → Option Complaint
  | stray name => some ⟨[.key name], .unknownField name ["machine", "limits"]⟩
  | entry .machine key v => (errorOf (setEntry machineFields {} (key, v))).map (Complaint.under (.key "machine"))
  | entry .limits key v => (errorOf (setEntry limitFields {} (key, v))).map (Complaint.under (.key "limits"))

/-- Reading complains of nothing about a clause that is fine, and otherwise of what is wrong with it. -/
theorem Clause.complaint?_cases (x : Clause) :
    (x.Fine ∧ x.complaint? = none) ∨ ∃ c, x.Offends c ∧ x.complaint? = some c := by
  match x with
  | stray name => exact .inr ⟨_, .stray, rfl⟩
  | entry .machine key v =>
    simp only [complaint?, setEntry_machine]
    split_ifs with hw he
    · subst hw
      rw [errorOf_mapError, errorOf_map]
      rcases readWidth_cases v with ⟨w, hn, hr⟩ | ⟨c, hc, hr⟩ <;> rw [hr]
      · exact .inl ⟨.width w hn, rfl⟩
      · exact .inr ⟨_, .width hc, rfl⟩
    · subst he
      rw [errorOf_mapError, errorOf_map]
      rcases readEof_cases v with ⟨p, hn, hr⟩ | ⟨c, hc, hr⟩ <;> rw [hr]
      · exact .inl ⟨.eof p hn, rfl⟩
      · exact .inr ⟨_, .eof hc, rfl⟩
    · exact .inr ⟨_, .key (by simp [Section.keys, hw, he]), rfl⟩
  | entry .limits key v =>
    simp only [complaint?, setEntry_limits]
    split_ifs with ht hm
    · subst ht
      rw [errorOf_mapError, errorOf_map]
      rcases readCount_cases v with ⟨n, rfl, hr⟩ | ⟨c, hc, hr⟩ <;> rw [hr]
      · exact .inl ⟨.timeout n, rfl⟩
      · exact .inr ⟨_, .count (by decide : "timeout_ms" ∈ Section.limits.keys) hc, rfl⟩
    · subst hm
      rw [errorOf_mapError, errorOf_map]
      rcases readCount_cases v with ⟨n, rfl, hr⟩ | ⟨c, hc, hr⟩ <;> rw [hr]
      · exact .inl ⟨.maxSteps n, rfl⟩
      · exact .inr ⟨_, .count (by decide : "max_steps" ∈ Section.limits.keys) hc, rfl⟩
    · exact .inr ⟨_, .key (by simp [Section.keys, ht, hm]), rfl⟩

/-! The keys of these relations are literals, so they are taken apart for any key first. -/

theorem admissible_machine {key : String} {v : Toml.Value} (h : Admissible .machine key v) :
    (key = "cell_width" ∧ ∃ w, Names (widthLabel w) v) ∨ (key = "eof" ∧ ∃ p, Names (eofLabel p) v) := by
  cases h with
  | width w h => exact .inl ⟨rfl, w, h⟩
  | eof p h => exact .inr ⟨rfl, p, h⟩

theorem admissible_limits {key : String} {v : Toml.Value} (h : Admissible .limits key v) :
    key ∈ Section.limits.keys ∧ ∃ n : ℕ, v = .integer n := by
  cases h with
  | timeout n | maxSteps n => exact ⟨by decide, n, rfl⟩

theorem Admissible.mem_keys {s : Section} {key : String} {v : Toml.Value} (h : Admissible s key v) :
    key ∈ s.keys := by
  cases h <;> decide

theorem offends_machine {key : String} {v : Toml.Value} {c : Complaint}
    (h : Clause.Offends (.entry .machine key v) c) :
    (key ∉ Section.machine.keys ∧ c = ⟨[.key "machine", .key key], .unknownField key Section.machine.keys⟩) ∨
    (key = "cell_width" ∧ ∃ x, Misnames ["byte", "unbounded"] v x ∧
      c = ⟨.key "machine" :: .key "cell_width" :: x.path, x.problem⟩) ∨
    (key = "eof" ∧ ∃ x, Misnames ["zero", "unchanged", "error"] v x ∧
      c = ⟨.key "machine" :: .key "eof" :: x.path, x.problem⟩) := by
  cases h with
  | key h => exact .inl ⟨h, rfl⟩
  | width h => exact .inr (.inl ⟨rfl, _, h, rfl⟩)
  | eof h => exact .inr (.inr ⟨rfl, _, h, rfl⟩)

theorem offends_limits {key : String} {v : Toml.Value} {c : Complaint}
    (h : Clause.Offends (.entry .limits key v) c) :
    (key ∉ Section.limits.keys ∧ c = ⟨[.key "limits", .key key], .unknownField key Section.limits.keys⟩) ∨
    (key ∈ Section.limits.keys ∧ ∃ x, Miscounts v x ∧ c = ⟨.key "limits" :: .key key :: x.path, x.problem⟩) := by
  cases h with
  | key h => exact .inl ⟨h, rfl⟩
  | count hkey h => exact .inr ⟨hkey, _, h, rfl⟩

theorem Clause.Fine.not_offends {x : Clause} {c : Complaint} (hx : x.Fine) : ¬ x.Offends c := by
  intro h
  match x with
  | stray name => exact hx
  | entry .machine key v =>
    rcases offends_machine h with ⟨hk, -⟩ | ⟨rfl, y, hm, -⟩ | ⟨rfl, y, hm, -⟩
    · exact hk (Admissible.mem_keys hx)
    · rcases admissible_machine hx with ⟨-, w, hn⟩ | ⟨hk, -⟩
      · exact hm.not_mem hn (by cases w <;> decide)
      · exact absurd hk (by decide)
    · rcases admissible_machine hx with ⟨hk, -⟩ | ⟨-, p, hn⟩
      · exact absurd hk (by decide)
      · exact hm.not_mem hn (by cases p <;> decide)
  | entry .limits key v =>
    obtain ⟨hk, n, rfl⟩ := admissible_limits hx
    rcases offends_limits h with ⟨hk', -⟩ | ⟨-, y, hm, -⟩
    · exact hk' hk
    · cases hm with
      | negative hn => omega
      | kind hn => exact hn n rfl

theorem Clause.Offends.unique {x : Clause} {c c' : Complaint} (h : x.Offends c) (h' : x.Offends c') :
    c = c' := by
  match x with
  | .stray name =>
    cases h
    cases h'
    rfl
  | .entry .machine k v =>
    rcases offends_machine h with ⟨hk, rfl⟩ | ⟨rfl, y, hm, rfl⟩ | ⟨rfl, y, hm, rfl⟩
    · rcases offends_machine h' with ⟨-, rfl⟩ | ⟨rfl, -⟩ | ⟨rfl, -⟩
      · rfl
      · exact absurd (by decide) hk
      · exact absurd (by decide) hk
    · rcases offends_machine h' with ⟨hk, -⟩ | ⟨-, y', hm', rfl⟩ | ⟨hk, -⟩
      · exact absurd (by decide) hk
      · rw [hm.unique hm']
      · exact absurd hk (by decide)
    · rcases offends_machine h' with ⟨hk, -⟩ | ⟨hk, -⟩ | ⟨-, y', hm', rfl⟩
      · exact absurd (by decide) hk
      · exact absurd hk (by decide)
      · rw [hm.unique hm']
  | .entry .limits k v =>
    rcases offends_limits h with ⟨hk, rfl⟩ | ⟨hk, y, hm, rfl⟩
    · rcases offends_limits h' with ⟨-, rfl⟩ | ⟨hk', -⟩
      · rfl
      · exact absurd hk' hk
    · rcases offends_limits h' with ⟨hk', -⟩ | ⟨-, y', hm', rfl⟩
      · exact absurd hk hk'
      · rw [hm.unique hm']

theorem Clause.complaint?_eq_none {x : Clause} : x.complaint? = none ↔ x.Fine := by
  rcases x.complaint?_cases with ⟨hf, hn⟩ | ⟨c, hc, hs⟩
  · exact iff_of_true hn hf
  · rw [hs]
    exact iff_of_false (by simp) fun hf => hf.not_offends hc

theorem Clause.complaint?_eq_some {x : Clause} {c : Complaint} : x.complaint? = some c ↔ x.Offends c := by
  rcases x.complaint?_cases with ⟨hf, hn⟩ | ⟨c', hc, hs⟩
  · rw [hn]
    exact iff_of_false (by simp) hf.not_offends
  · rw [hs, Option.some.injEq]
    exact ⟨fun h => h ▸ hc, fun h => hc.unique h⟩

end TapeMachine.Config
