import Mathlib
import TapeMachine.Config.File
import TapeMachine.Proofs.Clauses
import TapeMachine.Proofs.Document

/-! Sections of a configuration. A document is accepted when all its clauses are fine. Reading goes through
the document once, so the first clause that offends is the one that is reported, and an accepted document
has filled each field by the only clause that is about it or left it at its default. As no key occurs
twice, the order of the clauses makes no difference. -/

namespace TapeMachine.Config

/-- The keys of a section, with their values. -/
def sectionClauses (s : Section) : Toml.Value → List Clause
  | .table es => es.map fun e => .entry s e.1 e.2
  | _ => []

def clausesAt (e : String × Toml.Value) : List Clause :=
  if e.1 = "machine" then sectionClauses .machine e.2
  else if e.1 = "limits" then sectionClauses .limits e.2
  else [.stray e.1]

/-- The clauses of a document in order, each section as a whole where it stands. -/
def clauses (t : Toml.Table) : List Clause := t.flatMap clausesAt

/-- Sections are tables where they are present. -/
def SectionsAreTables (t : Toml.Table) : Prop := ∀ (s : Section) v, (s.name, v) ∈ t → ∃ es, v = .table es

/-- A key of a section has a value. -/
def Given (t : Toml.Table) (s : Section) (key : String) (v : Toml.Value) : Prop :=
  ∃ es, (s.name, .table es) ∈ t ∧ (key, v) ∈ es

/-- A document with no other keys than those there are, and no other values than they may have. -/
structure Documented (t : Toml.Table) : Prop where
  sections : ∀ e ∈ t, e.1 = "machine" ∨ e.1 = "limits"
  entries : ∀ s key v, Given t s key v → Admissible s key v

/-- A field has the value that its key is given, and its default if there is none. -/
structure Fills {α : Type} (t : Toml.Table) (s : Section) (key : String) (means : Toml.Value → α → Prop)
    (default value : α) : Prop where
  given : ∀ v, Given t s key v → means v value
  missing : (∀ v, ¬ Given t s key v) → value = default

/-- A configuration with the given values in their fields, and the default in every other. -/
structure Reflects (t : Toml.Table) (c : Config) : Prop where
  width : Fills t .machine "cell_width" (fun v w => Names (widthLabel w) v) .byte c.machine.width
  eof : Fills t .machine "eof" (fun v p => Names (eofLabel p) v) .zero c.machine.eof
  timeoutMs : Fills t .limits "timeout_ms" Counts none c.limits.timeoutMs
  maxSteps : Fills t .limits "max_steps" Counts none c.limits.maxSteps

/-- The same document with its sections, and the keys of its sections, in another order. -/
inductive Rearranges : Toml.Table → Toml.Table → Prop
  | sections {t t' : Toml.Table} (h : t.Perm t') : Rearranges t t'
  | keys {before after es es' : Toml.Table} {name : String} (h : es.Perm es') :
    Rearranges (before ++ (name, .table es) :: after) (before ++ (name, .table es') :: after)
  | trans {t t' t'' : Toml.Table} (h : Rearranges t t') (h' : Rearranges t' t'') : Rearranges t t''

/-! Whole documents. -/

/-- A fold whose steps fail for reasons of their own fails with the first of these. -/
theorem errorOf_foldlM {ε α β : Type} {f : α → β → Except ε α} {check : β → Option ε} {l : List β}
    (h : ∀ a, ∀ b ∈ l, errorOf (f a b) = check b) (a : α) :
    errorOf (l.foldlM f a) = l.findSome? check := by
  induction l generalizing a with
  | nil => rfl
  | cons b l ih =>
    have hb := h a b List.mem_cons_self
    rw [List.foldlM_cons, List.findSome?_cons, ← hb]
    cases f a b with
    | error e => rfl
    | ok a' => exact ih (fun a b hb => h a b (List.mem_cons_of_mem _ hb)) a'

theorem findSome?_flatMap {α β γ : Type} (f : β → Option γ) (g : α → List β) (l : List α) :
    (l.flatMap g).findSome? f = l.findSome? fun a => (g a).findSome? f := by
  induction l with
  | nil => rfl
  | cons a l ih =>
    rw [List.flatMap_cons, List.findSome?_append, List.findSome?_cons, ih]
    cases (g a).findSome? f <;> rfl

theorem errorOf_setEntry_machine (m : Mode) (e : String × Toml.Value) :
    errorOf (setEntry machineFields m e) = errorOf (setEntry machineFields {} e) := by
  obtain ⟨key, v⟩ := e
  simp only [setEntry_machine]
  split_ifs <;> simp only [errorOf_mapError, errorOf_map]

theorem errorOf_setEntry_limits (l : Limits) (e : String × Toml.Value) :
    errorOf (setEntry limitFields l e) = errorOf (setEntry limitFields {} e) := by
  obtain ⟨key, v⟩ := e
  simp only [setEntry_limits]
  split_ifs <;> simp only [errorOf_mapError, errorOf_map]

/-- A section reports its first entry that cannot be set, below its own key. -/
theorem errorOf_readSection {α β : Type} (place : Place) (name : String) (fields : List (Field α))
    (default : α) (f : α → β) (h : ∀ a e, errorOf (setEntry fields a e) = errorOf (setEntry fields default e))
    (es : Toml.Table) :
    errorOf (((readSection name fields default (.table es)).map f).mapError (Complaint.under place)) =
      es.findSome? fun e => (errorOf (setEntry fields default e)).map (Complaint.under place) := by
  have hfold : errorOf (readSection name fields default (.table es)) =
      es.findSome? fun e => errorOf (setEntry fields default e) :=
    errorOf_foldlM (fun a e _ => h a e) default
  rw [errorOf_mapError, errorOf_map, hfold, List.map_findSome?]
  rfl

/-- Reading a document reports the first clause that reading complains of. -/
theorem errorOf_ofTable {t : Toml.Table} (ht : SectionsAreTables t) :
    errorOf (ofTable t) = (clauses t).findSome? Clause.complaint? := by
  rw [clauses, findSome?_flatMap]
  refine errorOf_foldlM (fun c e he => ?_) ({} : Config)
  obtain ⟨name, v⟩ := e
  rw [setEntry_sections, clausesAt]
  split_ifs with hm hl
  · subst hm
    obtain ⟨es, rfl⟩ := ht .machine v he
    rw [errorOf_readSection _ _ _ _ _ errorOf_setEntry_machine, sectionClauses, List.findSome?_map]
    rfl
  · subst hl
    obtain ⟨es, rfl⟩ := ht .limits v he
    rw [errorOf_readSection _ _ _ _ _ errorOf_setEntry_limits, sectionClauses, List.findSome?_map]
    rfl
  · rfl

/-! Fields. -/

/-- A fold over distinct keys leaves a field as the entry with its key has set it, or untouched. -/
theorem get_foldlM {α β : Type} {step : α → String × Toml.Value → Except Complaint α} (get : α → β)
    (key : String) (means : Toml.Value → β → Prop)
    (hkey : ∀ a v a', step a (key, v) = .ok a' → means v (get a'))
    (hother : ∀ a e a', e.1 ≠ key → step a e = .ok a' → get a' = get a) {l : Toml.Table}
    (hd : l.Distinct) {a a' : α} (h : l.foldlM step a = .ok a') :
    (∀ v, (key, v) ∈ l → means v (get a')) ∧ ((∀ v, (key, v) ∉ l) → get a' = get a) := by
  induction l generalizing a with
  | nil =>
    cases h
    exact ⟨by simp, fun _ => rfl⟩
  | cons e l ih =>
    rw [List.foldlM_cons] at h
    cases hb : step a e with
    | error c =>
      rw [hb] at h
      cases h
    | ok b =>
      rw [hb] at h
      obtain ⟨hnot, hd⟩ := List.nodup_cons.1 hd
      obtain ⟨hgiven, hmissing⟩ := ih hd h
      refine ⟨fun v hv => ?_, fun hno => ?_⟩
      · rcases List.mem_cons.1 hv with rfl | hv
        · have hlast : get a' = get b := hmissing fun v' hv' => hnot (List.mem_map.2 ⟨_, hv', rfl⟩)
          rw [hlast]
          exact hkey a v b hb
        · exact hgiven v hv
      · have hne : e.1 ≠ key := by
          rintro rfl
          exact hno e.2 List.mem_cons_self
        rw [hmissing fun v hv => hno v (List.mem_cons_of_mem _ hv), hother a e b hne hb]

/-- What has become of a value on the way through the entries of a document. -/
theorem ok_of_map {ε ε' α β : Type} {f : α → β} {g : ε → ε'} {x : Except ε α} {b : β}
    (h : (x.map f).mapError g = .ok b) : ∃ a, x = .ok a ∧ f a = b := by
  cases x with
  | error e => cases h
  | ok a => exact ⟨a, rfl, Except.ok.inj h⟩

/-- What has become of a section when a document has been read. -/
theorem machine_of_ofTable {t : Toml.Table} {c : Config} (hd : t.Distinct) (h : ofTable t = .ok c) :
    (∀ v, ("machine", v) ∈ t → readSection "MachineConfig" machineFields {} v = .ok c.machine) ∧
    ((∀ v, ("machine", v) ∉ t) → c.machine = {}) := by
  refine get_foldlM Config.machine "machine"
    (fun v m => readSection "MachineConfig" machineFields {} v = .ok m)
    (fun a v a' ha => ?_) (fun a e a' hne ha => ?_) hd h
  · rw [setEntry_sections, if_pos rfl] at ha
    obtain ⟨m, hm, rfl⟩ := ok_of_map ha
    exact hm
  · rw [setEntry_sections, if_neg hne] at ha
    split_ifs at ha
    · obtain ⟨l, -, rfl⟩ := ok_of_map ha
      rfl

theorem limits_of_ofTable {t : Toml.Table} {c : Config} (hd : t.Distinct) (h : ofTable t = .ok c) :
    (∀ v, ("limits", v) ∈ t → readSection "Limits" limitFields {} v = .ok c.limits) ∧
    ((∀ v, ("limits", v) ∉ t) → c.limits = {}) := by
  refine get_foldlM Config.limits "limits"
    (fun v l => readSection "Limits" limitFields {} v = .ok l)
    (fun a v a' ha => ?_) (fun a e a' hne ha => ?_) hd h
  · rw [setEntry_sections, if_neg (by decide), if_pos rfl] at ha
    obtain ⟨l, hl, rfl⟩ := ok_of_map ha
    exact hl
  · rw [setEntry_sections, if_neg hne] at ha
    split_ifs at ha
    · obtain ⟨m, -, rfl⟩ := ok_of_map ha
      rfl

/-- The field of a key is filled by its section, given how entries of the section set it. -/
theorem fills_of_section {t : Toml.Table} (ht : t.Sound) (hs : SectionsAreTables t) {α β : Type} {s : Section}
    {name key : String} {fields : List (Field α)} {default a : α} (get : α → β)
    (means : Toml.Value → β → Prop)
    (hread : (∀ v, (s.name, v) ∈ t → readSection name fields default v = .ok a) ∧
      ((∀ v, (s.name, v) ∉ t) → a = default))
    (hkey : ∀ x v y, setEntry fields x (key, v) = .ok y → means v (get y))
    (hother : ∀ x e y, e.1 ≠ key → setEntry fields x e = .ok y → get y = get x) :
    Fills t s key means (get default) (get a) where
  given v := by
    rintro ⟨es, hes, hv⟩
    exact (get_foldlM get key means hkey hother (ht.values _ hes es rfl) (hread.1 _ hes)).1 v hv
  missing hno := by
    by_cases hsec : ∃ v, (s.name, v) ∈ t
    · obtain ⟨v, hv⟩ := hsec
      obtain ⟨es, rfl⟩ := hs s v hv
      exact (get_foldlM get key means hkey hother (ht.values _ hv es rfl) (hread.1 _ hv)).2
        fun v' hv' => hno v' ⟨es, hv, hv'⟩
    · rw [hread.2 fun v hv => hsec ⟨v, hv⟩]

/-- What is read well has what reading well comes with. -/
theorem good_of_ok {ε α : Type} {x : Except ε α} {good : α → Prop} {bad : ε → Prop}
    (h : (∃ a, good a ∧ x = .ok a) ∨ ∃ e, bad e ∧ x = .error e) {a : α} (ha : x = .ok a) : good a := by
  rcases h with ⟨b, hb, hx⟩ | ⟨e, -, hx⟩
  · cases hx.symm.trans ha
    exact hb
  · cases hx.symm.trans ha

theorem setEntry_width {m m' : Mode} {v : Toml.Value}
    (h : setEntry machineFields m ("cell_width", v) = .ok m') : Names (widthLabel m'.width) v := by
  rw [setEntry_machine, if_pos rfl] at h
  obtain ⟨w, hw, rfl⟩ := ok_of_map h
  exact good_of_ok (readWidth_cases v) hw

theorem setEntry_eof {m m' : Mode} {v : Toml.Value} (h : setEntry machineFields m ("eof", v) = .ok m') :
    Names (eofLabel m'.eof) v := by
  rw [setEntry_machine, if_neg (by decide), if_pos rfl] at h
  obtain ⟨p, hp, rfl⟩ := ok_of_map h
  exact good_of_ok (readEof_cases v) hp

theorem counts_of_readCount {v : Toml.Value} {n : ℕ} (h : readCount v = .ok n) : Counts v (some n) :=
  ⟨n, good_of_ok (readCount_cases v) h, rfl⟩

theorem setEntry_timeout {l l' : Limits} {v : Toml.Value}
    (h : setEntry limitFields l ("timeout_ms", v) = .ok l') : Counts v l'.timeoutMs := by
  rw [setEntry_limits, if_pos rfl] at h
  obtain ⟨n, hn, rfl⟩ := ok_of_map h
  exact counts_of_readCount hn

theorem setEntry_maxSteps {l l' : Limits} {v : Toml.Value}
    (h : setEntry limitFields l ("max_steps", v) = .ok l') : Counts v l'.maxSteps := by
  rw [setEntry_limits, if_neg (by decide), if_pos rfl] at h
  obtain ⟨n, hn, rfl⟩ := ok_of_map h
  exact counts_of_readCount hn

/-- Setting one key of a section leaves the field of the other alone. -/
theorem setEntry_machine_frame {m m' : Mode} {e : String × Toml.Value}
    (h : setEntry machineFields m e = .ok m') :
    (e.1 ≠ "cell_width" → m'.width = m.width) ∧ (e.1 ≠ "eof" → m'.eof = m.eof) := by
  rw [setEntry_machine] at h
  split_ifs at h with hw he
  · obtain ⟨w, -, rfl⟩ := ok_of_map h
    exact ⟨fun hne => absurd hw hne, fun _ => rfl⟩
  · obtain ⟨p, -, rfl⟩ := ok_of_map h
    exact ⟨fun _ => rfl, fun hne => absurd he hne⟩

theorem setEntry_limits_frame {l l' : Limits} {e : String × Toml.Value}
    (h : setEntry limitFields l e = .ok l') :
    (e.1 ≠ "timeout_ms" → l'.timeoutMs = l.timeoutMs) ∧ (e.1 ≠ "max_steps" → l'.maxSteps = l.maxSteps) := by
  rw [setEntry_limits] at h
  split_ifs at h with ht hm
  · obtain ⟨n, -, rfl⟩ := ok_of_map h
    exact ⟨fun hne => absurd ht hne, fun _ => rfl⟩
  · obtain ⟨n, -, rfl⟩ := ok_of_map h
    exact ⟨fun _ => rfl, fun hne => absurd hm hne⟩

theorem reflects_of_ofTable {t : Toml.Table} (ht : t.Sound) (hs : SectionsAreTables t) {c : Config}
    (h : ofTable t = .ok c) : Reflects t c where
  width := fills_of_section ht hs Mode.width _ (s := .machine) (machine_of_ofTable ht.distinct h)
    (fun _ _ _ => setEntry_width) fun _ _ _ hne hy => (setEntry_machine_frame hy).1 hne
  eof := fills_of_section ht hs Mode.eof _ (s := .machine) (machine_of_ofTable ht.distinct h)
    (fun _ _ _ => setEntry_eof) fun _ _ _ hne hy => (setEntry_machine_frame hy).2 hne
  timeoutMs := fills_of_section ht hs Limits.timeoutMs _ (s := .limits) (limits_of_ofTable ht.distinct h)
    (fun _ _ _ => setEntry_timeout) fun _ _ _ hne hy => (setEntry_limits_frame hy).1 hne
  maxSteps := fills_of_section ht hs Limits.maxSteps _ (s := .limits) (limits_of_ofTable ht.distinct h)
    (fun _ _ _ => setEntry_maxSteps) fun _ _ _ hne hy => (setEntry_limits_frame hy).2 hne

theorem Fills.unique {α : Type} {t t' : Toml.Table} {s : Section} {key : String}
    {means : Toml.Value → α → Prop} {default a b : α} (hmeans : ∀ v a b, means v a → means v b → a = b)
    (hgiven : ∀ v, Given t s key v ↔ Given t' s key v) (ha : Fills t s key means default a)
    (hb : Fills t' s key means default b) : a = b := by
  by_cases h : ∃ v, Given t s key v
  · obtain ⟨v, hv⟩ := h
    exact hmeans v a b (ha.given v hv) (hb.given v ((hgiven v).1 hv))
  · rw [ha.missing fun v hv => h ⟨v, hv⟩, hb.missing fun v hv => h ⟨v, (hgiven v).2 hv⟩]

/-- Two documents that give the same keys the same values have the same configuration. -/
theorem Reflects.unique {t t' : Toml.Table} {c c' : Config}
    (hgiven : ∀ s key v, Given t s key v ↔ Given t' s key v) (h : Reflects t c) (h' : Reflects t' c') :
    c = c' := by
  have hw := h.width.unique (fun v a b ha hb => widthLabel_injective (ha.unique hb))
    (hgiven .machine "cell_width") h'.width
  have he := h.eof.unique (fun v a b ha hb => eofLabel_injective (ha.unique hb))
    (hgiven .machine "eof") h'.eof
  have hcounts (v : Toml.Value) (a b : Option ℕ) (ha : Counts v a) (hb : Counts v b) : a = b := ha.unique hb
  have ht := h.timeoutMs.unique hcounts (hgiven .limits "timeout_ms") h'.timeoutMs
  have hm := h.maxSteps.unique hcounts (hgiven .limits "max_steps") h'.maxSteps
  obtain ⟨⟨w, p⟩, ⟨n, m⟩⟩ := c
  obtain ⟨⟨w', p'⟩, ⟨n', m'⟩⟩ := c'
  simp only at hw he ht hm
  rw [hw, he, ht, hm]

/-! Clauses and the document. -/

theorem mem_sectionClauses {s s' : Section} {key : String} {u v : Toml.Value} :
    .entry s key v ∈ sectionClauses s' u ↔ s = s' ∧ ∃ es, u = .table es ∧ (key, v) ∈ es := by
  cases u with
  | table es =>
    simp only [sectionClauses, List.mem_map, Clause.entry.injEq, Toml.Value.table.injEq]
    constructor
    · rintro ⟨e, he, rfl, rfl, rfl⟩
      exact ⟨rfl, es, rfl, he⟩
    · rintro ⟨rfl, es', rfl, he⟩
      exact ⟨(key, v), he, rfl, rfl, rfl⟩
  | _ => simp [sectionClauses]

theorem not_mem_sectionClauses {s : Section} {name : String} {u : Toml.Value} :
    .stray name ∉ sectionClauses s u := by
  cases u <;> simp [sectionClauses]

theorem mem_clauses {t : Toml.Table} {s : Section} {key : String} {v : Toml.Value} :
    .entry s key v ∈ clauses t ↔ Given t s key v := by
  have hat (e : String × Toml.Value) :
      .entry s key v ∈ clausesAt e ↔ e.1 = s.name ∧ ∃ es, e.2 = .table es ∧ (key, v) ∈ es := by
    unfold clausesAt
    split_ifs with hm hl
    · rw [mem_sectionClauses, hm]
      cases s <;> simp [Section.name]
    · rw [mem_sectionClauses, hl]
      cases s <;> simp [Section.name]
    · cases s <;> simp [Section.name, hm, hl]
  simp only [clauses, List.mem_flatMap, hat]
  constructor
  · rintro ⟨⟨name, u⟩, he, rfl, es, rfl, hv⟩
    exact ⟨es, he, hv⟩
  · rintro ⟨es, he, hv⟩
    exact ⟨_, he, rfl, es, rfl, hv⟩

theorem stray_mem_clauses {t : Toml.Table} {name : String} :
    .stray name ∈ clauses t ↔ name ≠ "machine" ∧ name ≠ "limits" ∧ ∃ v, (name, v) ∈ t := by
  have hat (e : String × Toml.Value) :
      .stray name ∈ clausesAt e ↔ e.1 ≠ "machine" ∧ e.1 ≠ "limits" ∧ e.1 = name := by
    unfold clausesAt
    split_ifs with hm hl
    · simp [not_mem_sectionClauses, hm]
    · simp [not_mem_sectionClauses, hl]
    · simp [hm, hl, eq_comm]
  simp only [clauses, List.mem_flatMap, hat]
  constructor
  · rintro ⟨⟨name', v⟩, he, hm, hl, rfl⟩
    exact ⟨hm, hl, v, he⟩
  · rintro ⟨hm, hl, v, he⟩
    exact ⟨_, he, hm, hl, rfl⟩

/-- A document is as documented just when all its clauses are fine. -/
theorem documented_iff {t : Toml.Table} : Documented t ↔ ∀ x ∈ clauses t, x.Fine := by
  constructor
  · intro h x hx
    match x with
    | .stray name =>
      obtain ⟨hm, hl, v, he⟩ := stray_mem_clauses.1 hx
      exact (h.sections _ he).elim hm hl
    | .entry s key v => exact h.entries s key v (mem_clauses.1 hx)
  · intro h
    refine ⟨fun e he => ?_, fun s key v hv => h _ (mem_clauses.2 hv)⟩
    by_contra hno
    rw [not_or] at hno
    exact h (.stray e.1) (stray_mem_clauses.2 ⟨hno.1, hno.2, e.2, he⟩)

theorem Rearranges.clauses_perm {t t' : Toml.Table} (h : Rearranges t t') :
    (clauses t).Perm (clauses t') := by
  induction h with
  | sections h => exact h.flatMap_right _
  | keys h =>
    have hat (name : String) (es es' : Toml.Table) (h : es.Perm es') :
        (clausesAt (name, .table es)).Perm (clausesAt (name, .table es')) := by
      unfold clausesAt
      split_ifs
      · exact h.map _
      · exact h.map _
      · exact .refl _
    simp only [clauses, List.flatMap_append, List.flatMap_cons]
    exact ((hat _ _ _ h).append_right _).append_left _
  | trans _ _ ih ih' => exact ih.trans ih'

theorem Rearranges.sectionsAreTables {t t' : Toml.Table} (h : Rearranges t t') (ht : SectionsAreTables t) :
    SectionsAreTables t' := by
  induction h with
  | sections h => exact fun s v hv => ht s v (h.mem_iff.2 hv)
  | keys h =>
    intro s v hv
    rw [List.mem_append, List.mem_cons] at hv
    rcases hv with hv | hv | hv
    · exact ht s v (by simp [hv])
    · exact ⟨_, (Prod.mk.inj hv).2⟩
    · exact ht s v (by simp [hv])
  | trans _ _ ih ih' => exact ih' (ih ht)

theorem Rearranges.sound {t t' : Toml.Table} (h : Rearranges t t') (ht : t.Sound) : t'.Sound := by
  induction h with
  | sections h => exact ⟨(h.map _).nodup_iff.1 ht.distinct, fun e he => ht.values e (h.mem_iff.2 he)⟩
  | @keys before after es es' name h =>
    refine ⟨?_, fun e he => ?_⟩
    · simpa [Toml.Table.Distinct] using ht.distinct
    · rcases List.mem_append.1 he with he | he
      · exact ht.values e (List.mem_append_left _ he)
      rcases List.mem_cons.1 he with rfl | he
      · rintro _ ⟨⟩
        exact (h.map _).nodup_iff.1 (ht.values (name, .table es) (by simp) es rfl)
      · exact ht.values e (List.mem_append_right _ (List.mem_cons_of_mem _ he))
  | trans _ _ ih ih' => exact ih' (ih ht)

/-! Files. -/

theorem Reader.sound_default {s : String} {t : Toml.Table} (h : ({} : Reader).table? s = some t) : t.Sound :=
  Toml.Table.sound_ofText? h

/-- A file that is read as a document is rejected for what is wrong in the document. -/
theorem ofFile_eq {reader : Reader} {path : String} {state : FileState} {text : String} {t : Toml.Table}
    (hread : state.text = .ok text) (hparse : reader.table? text = some t) :
    ofFile path state reader = (ofTable t).mapError fun c => .invalid path ⟨text, some c⟩ := by
  simp only [ofFile, hread, ofText, hparse]
  cases ofTable t <;> rfl

theorem ofTable_ok_iff {t : Toml.Table} (hs : SectionsAreTables t) :
    (∃ c, ofTable t = .ok c) ↔ Documented t := by
  have h := errorOf_ofTable hs
  rw [documented_iff]
  constructor
  · rintro ⟨c, hc⟩ x hx
    rw [hc] at h
    exact Clause.complaint?_eq_none.1 (List.findSome?_eq_none_iff.1 h.symm x hx)
  · intro hfine
    rw [List.findSome?_eq_none_iff.2 fun x hx => Clause.complaint?_eq_none.2 (hfine x hx)] at h
    cases ht : ofTable t with
    | ok c => exact ⟨c, rfl⟩
    | error e =>
      rw [ht] at h
      cases h

theorem ofTable_error_iff {t : Toml.Table} (hs : SectionsAreTables t) {c : Complaint} :
    ofTable t = .error c ↔ ∃ before x after, clauses t = before ++ x :: after ∧
      (∀ b ∈ before, b.Fine) ∧ x.Offends c := by
  have h : ofTable t = .error c ↔ errorOf (ofTable t) = some c := by
    cases ofTable t <;> simp [errorOf]
  rw [h, errorOf_ofTable hs, List.findSome?_eq_some_iff]
  simp only [Clause.complaint?_eq_none, Clause.complaint?_eq_some]
  constructor
  · rintro ⟨before, x, after, ht, hx, hbefore⟩
    exact ⟨before, x, after, ht, hbefore, hx⟩
  · rintro ⟨before, x, after, ht, hbefore, hx⟩
    exact ⟨before, x, after, ht, hx, hbefore⟩

theorem ofTable_rearranged {t t' : Toml.Table} (ht : t.Sound) (hs : SectionsAreTables t)
    (h : Rearranges t t') {c : Config} (hc : ofTable t = .ok c) : ofTable t' = .ok c := by
  have hs' := h.sectionsAreTables hs
  have hdoc : Documented t' := documented_iff.2 fun x hx =>
    documented_iff.1 ((ofTable_ok_iff hs).1 ⟨c, hc⟩) x (h.clauses_perm.mem_iff.2 hx)
  obtain ⟨c', hc'⟩ := (ofTable_ok_iff hs').2 hdoc
  have hgiven (s : Section) (key : String) (v : Toml.Value) : Given t s key v ↔ Given t' s key v := by
    rw [← mem_clauses, ← mem_clauses, h.clauses_perm.mem_iff]
  rw [hc', (reflects_of_ofTable ht hs hc).unique hgiven (reflects_of_ofTable (h.sound ht) hs' hc')]

/-- However documents are read, a file whose document has tables for sections and repeats no key is accepted
just when the document is as documented. It then gives what the document does, whatever the order of its
sections and keys, with defaults everywhere else. Otherwise the first clause that offends is reported, with
its place in the document and what is wrong there. -/
theorem ofFile_accepts_documented {reader : Reader} {path : String} {state : FileState} {text : String}
    {t : Toml.Table} (hread : state.text = .ok text) (hparse : reader.table? text = some t) (ht : t.Sound)
    (hs : SectionsAreTables t) :
    ((∃ c, ofFile path state reader = .ok c) ↔ Documented t) ∧
    (∀ c, ofFile path state reader = .ok c → Reflects t c) ∧
    (∀ (reader' : Reader) (path' : String) (state' : FileState) (text' : String) (t' : Toml.Table),
      state'.text = .ok text' → reader'.table? text' = some t' → Rearranges t t' →
      ∀ c, ofFile path state reader = .ok c → ofFile path' state' reader' = .ok c) ∧
    ∀ f, ofFile path state reader = .error f ↔ ∃ before x after c, clauses t = before ++ x :: after ∧
      (∀ b ∈ before, b.Fine) ∧ x.Offends c ∧ f = .invalid path ⟨text, some c⟩ := by
  have hok (c : Config) : ofFile path state reader = .ok c ↔ ofTable t = .ok c := by
    rw [ofFile_eq hread hparse]
    cases ofTable t <;> simp [Except.mapError]
  refine ⟨?_, fun c hc => reflects_of_ofTable ht hs ((hok c).1 hc),
    fun reader' path' state' text' t' hread' hparse' h c hc => ?_, fun f => ?_⟩
  · simp only [hok]
    exact ofTable_ok_iff hs
  · rw [ofFile_eq hread' hparse', ofTable_rearranged ht hs h ((hok c).1 hc)]
    rfl
  · have herror : ofFile path state reader = .error f ↔
        ∃ c, ofTable t = .error c ∧ f = .invalid path ⟨text, some c⟩ := by
      rw [ofFile_eq hread hparse]
      cases ofTable t <;> simp [Except.mapError, eq_comm]
    rw [herror]
    constructor
    · rintro ⟨c, hc, hf⟩
      obtain ⟨before, x, after, ht, hbefore, hx⟩ := (ofTable_error_iff hs).1 hc
      exact ⟨before, x, after, c, ht, hbefore, hx, hf⟩
    · rintro ⟨before, x, after, c, ht, hbefore, hx, hf⟩
      exact ⟨c, (ofTable_error_iff hs).2 ⟨before, x, after, ht, hbefore, hx⟩, hf⟩

set_option maxRecDepth 4000 in
theorem ofFile_accepts_documented_either_order : ∃ c : Config,
    ofFile "a.toml" (.holds "[limits]\nmax_steps = 7\n[machine]\neof = \"error\"\n".toUTF8) = .ok c ∧
    ofFile "b.toml" (.holds "[machine]\neof = \"error\"\n[limits]\nmax_steps = 7\n".toUTF8) = .ok c ∧
    c.limits.maxSteps = some 7 ∧ c.limits.timeoutMs = none := by
  have hparse : ({} : Reader).table? "[limits]\nmax_steps = 7\n[machine]\neof = \"error\"\n" = some
      [("limits", .table [("max_steps", .integer 7)]), ("machine", .table [("eof", .string "error")])] := by
    cbv
  have hparse' : ({} : Reader).table? "[machine]\neof = \"error\"\n[limits]\nmax_steps = 7\n" = some
      [("machine", .table [("eof", .string "error")]), ("limits", .table [("max_steps", .integer 7)])] := by
    cbv
  have hs : SectionsAreTables
      [("limits", .table [("max_steps", .integer 7)]), ("machine", .table [("eof", .string "error")])] := by
    intro s v hv
    rcases List.mem_pair.1 hv with h | h <;> exact ⟨_, (Prod.mk.inj h).2⟩
  have hdoc : Documented
      [("limits", .table [("max_steps", .integer 7)]), ("machine", .table [("eof", .string "error")])] := by
    refine documented_iff.2 fun x hx => ?_
    rcases List.mem_pair.1 hx with rfl | rfl
    · exact .maxSteps 7
    · exact .eof .error .string
  obtain ⟨haccepts, hreflects, hrearranged, -⟩ :=
    @ofFile_accepts_documented {} "a.toml" (.holds _) _ _ (textOfBytes_toUTF8 _) hparse
      (Reader.sound_default hparse) hs
  obtain ⟨c, hc⟩ := haccepts.2 hdoc
  have hr := hreflects c hc
  refine ⟨c, hc, hrearranged {} _ (.holds _) _ _ (textOfBytes_toUTF8 _) hparse' (.sections (.swap _ _ _)) c hc,
    ?_, hr.timeoutMs.missing ?_⟩
  · obtain ⟨k, hk, hn⟩ := hr.maxSteps.given (.integer 7) ⟨_, List.mem_cons_self, List.mem_cons_self⟩
    cases hk
    exact hn
  · rintro v ⟨es, hes, hv⟩
    rcases List.mem_pair.1 hes with h | h
    · cases (Prod.mk.inj h).2
      simp at hv
    · exact absurd (Prod.mk.inj h).1 (by decide)

end TapeMachine.Config
