import Mathlib.Data.List.Nodup
import TapeMachine.Toml.Document

/-! The tables of documents. What is read from a text as a document has no key twice, neither at the top
nor in a table there, whether the table is opened by headers, grows by dotted keys or stands in braces. A
draft keeps this as an invariant: statements alter the item under a key or add one under a new key. -/

namespace TapeMachine

namespace Text.Reader

variable {α β : Type}

/-- Whatever a reader takes from a text has a property. -/
def Yields (r : Reader α) (P : α → Prop) : Prop := ∀ cs a rest, r cs = some (a, rest) → P a

theorem yields_true (r : Reader α) : r.Yields fun _ => True := fun _ _ _ _ => trivial

theorem Yields.imp {r : Reader α} {P Q : α → Prop} (h : r.Yields P) (hPQ : ∀ a, P a → Q a) : r.Yields Q :=
  fun cs a rest ha => hPQ a (h cs a rest ha)

theorem yields_pure {a : α} {P : α → Prop} (h : P a) : Yields (pure a) P := by
  intro cs b rest hb
  cases hb
  exact h

theorem yields_failure {P : α → Prop} : Yields failure P := by
  intro cs a rest ha
  cases ha

theorem Yields.bind {r : Reader α} {f : α → Reader β} {P : α → Prop} {Q : β → Prop} (hr : r.Yields P)
    (hf : ∀ a, P a → (f a).Yields Q) : Yields (r >>= f) Q := by
  intro cs b rest hb
  have hbind : (r >>= f) cs = (r cs).bind fun x => f x.1 x.2 := rfl
  rw [hbind, Option.bind_eq_some_iff] at hb
  obtain ⟨⟨a, rest'⟩, ha, hb⟩ := hb
  exact hf a (hr cs a rest' ha) rest' b rest hb

/-- What is read before does not matter. -/
theorem yields_behind {r : Reader α} {f : α → Reader β} {P : β → Prop} (hf : ∀ a, (f a).Yields P) :
    Yields (r >>= f) P :=
  (yields_true r).bind fun a _ => hf a

theorem Yields.orElse {r s : Reader α} {P : α → Prop} (hr : r.Yields P) (hs : s.Yields P) :
    Yields (r <|> s) P := by
  intro cs a rest ha
  have hor : (r <|> s) cs = (r cs <|> s cs) := rfl
  rw [hor] at ha
  cases hx : r cs with
  | none =>
    rw [hx] at ha
    exact hs cs a rest ha
  | some x =>
    rw [hx] at ha
    exact hr cs a rest (hx.trans ha)

theorem Yields.map {r : Reader α} {f : α → β} {P : β → Prop} (h : r.Yields fun a => P (f a)) :
    Yields (f <$> r) P := by
  rw [map_eq_pure_bind]
  exact h.bind fun _ ha => yields_pure ha

theorem Yields.maybe {r : Reader α} {P : α → Prop} (h : r.Yields P) :
    (maybe r).Yields fun o => ∀ a ∈ o, P a :=
  .orElse (.map (h.imp fun a ha b hb => by cases hb; exact ha)) (yields_pure fun _ hb => by cases hb)

theorem Yields.upTo {r : Reader α} {P : α → Prop} (h : r.Yields P) (n : ℕ) :
    (upTo r n).Yields fun l => ∀ a ∈ l, P a := by
  induction n with
  | zero => exact yields_pure (by simp)
  | succ n ih =>
    refine h.maybe.bind fun o ho => ?_
    cases o with
    | none => exact yields_pure (by simp)
    | some a =>
      refine ih.bind fun l hl => yields_pure ?_
      simp only [List.mem_cons, forall_eq_or_imp]
      exact ⟨ho a rfl, hl⟩

theorem Yields.many {r : Reader α} {P : α → Prop} (h : r.Yields P) :
    (many r).Yields fun l => ∀ a ∈ l, P a :=
  fun cs l rest hl => h.upTo cs.length cs l rest hl

end Text.Reader

namespace Toml

/-- A table without a repeated key. -/
def Table.Distinct (t : Table) : Prop := (t.map Prod.fst).Nodup

/-- A value that is no table with a repeated key. -/
def Value.Distinct (v : Value) : Prop := ∀ t, v = .table t → Table.Distinct t

namespace Entries

/-- No key is repeated. -/
def Distinct (es : Entries) : Prop := (es.map Prod.fst).Nodup

/-- Altering the item under a key keeps the keys, or adds this one. -/
theorem keys_alter? {key : String} {f : Option Item → Option Item} {es es' : Entries}
    (h : es.alter? key f = some es') :
    es'.map Prod.fst = if key ∈ es.map Prod.fst then es.map Prod.fst else es.map Prod.fst ++ [key] := by
  induction es generalizing es' with
  | nil =>
    obtain ⟨item, -, rfl⟩ := Option.map_eq_some_iff.1 h
    rfl
  | cons e es ih =>
    obtain ⟨k, item⟩ := e
    rw [alter?] at h
    split_ifs at h with hk
    · obtain ⟨item', -, rfl⟩ := Option.map_eq_some_iff.1 h
      simp [hk]
    · obtain ⟨rest, hrest, rfl⟩ := Option.map_eq_some_iff.1 h
      have hk' : key ≠ k := Ne.symm hk
      simp only [List.map_cons, ih hrest, List.mem_cons, hk', false_or]
      split_ifs <;> rfl

theorem Distinct.alter? {key : String} {f : Option Item → Option Item} {es es' : Entries} (hd : es.Distinct)
    (h : es.alter? key f = some es') : es'.Distinct := by
  rw [Distinct, keys_alter? h]
  split_ifs with hk
  · exact hd
  · exact hd.append (List.nodup_singleton key) (by simpa using hk)

/-- The entries behind an alteration are old ones, or made by it. -/
theorem mem_alter? {key : String} {f : Option Item → Option Item} {es es' : Entries}
    (h : es.alter? key f = some es') {e : String × Item} (he : e ∈ es') :
    e ∈ es ∨ ∃ o, f o = some e.2 ∧ ∀ item ∈ o, (key, item) ∈ es := by
  induction es generalizing es' with
  | nil =>
    obtain ⟨item, hf, rfl⟩ := Option.map_eq_some_iff.1 h
    obtain rfl := List.mem_singleton.1 he
    exact .inr ⟨none, hf, by simp⟩
  | cons e' es ih =>
    obtain ⟨k, item⟩ := e'
    rw [alter?] at h
    split_ifs at h with hk
    · obtain ⟨item', hf, rfl⟩ := Option.map_eq_some_iff.1 h
      rcases List.mem_cons.1 he with rfl | he
      · refine .inr ⟨some item, hf, ?_⟩
        simp [hk]
      · exact .inl (List.mem_cons_of_mem _ he)
    · obtain ⟨rest, hrest, rfl⟩ := Option.map_eq_some_iff.1 h
      rcases List.mem_cons.1 he with rfl | he
      · exact .inl List.mem_cons_self
      · rcases ih hrest he with hold | ⟨o, hf, ho⟩
        · exact .inl (List.mem_cons_of_mem _ hold)
        · exact .inr ⟨o, hf, fun item' hi => List.mem_cons_of_mem _ (ho item' hi)⟩

end Entries

/-- An item in which no table has a repeated key. -/
inductive Item.Sound : Item → Prop
  | value {v : Value} (h : v.Distinct) : Sound (.value v)
  | table {origin : Origin} {es : Entries} (hd : es.Distinct) (h : ∀ e ∈ es, Sound e.2) :
    Sound (.table origin es)
  | tables {elements : List Entries} (hd : ∀ es ∈ elements, es.Distinct)
    (h : ∀ es ∈ elements, ∀ e ∈ es, Sound e.2) : Sound (.tables elements)

/-- Entries without a repeated key, here and further down. -/
structure Entries.Sound (es : Entries) : Prop where
  distinct : es.Distinct
  items : ∀ e ∈ es, e.2.Sound

namespace Entries

theorem sound_nil : Sound [] := ⟨List.nodup_nil, by simp⟩

theorem sound_table {origin : Origin} {es : Entries} : (Item.table origin es).Sound ↔ es.Sound :=
  ⟨fun h => by cases h with | table hd h => exact ⟨hd, h⟩, fun h => .table h.distinct h.items⟩

theorem sound_tables {elements : List Entries} : (Item.tables elements).Sound ↔ ∀ es ∈ elements, es.Sound :=
  ⟨fun h es hes => by cases h with | tables hd h => exact ⟨hd es hes, h es hes⟩,
    fun h => .tables (fun es hes => (h es hes).distinct) fun es hes => (h es hes).items⟩

theorem Sound.alter? {key : String} {f : Option Item → Option Item} {es es' : Entries} (hs : es.Sound)
    (hf : ∀ o item, (∀ i ∈ o, i.Sound) → f o = some item → item.Sound)
    (h : es.alter? key f = some es') : es'.Sound where
  distinct := hs.distinct.alter? h
  items e he := by
    rcases mem_alter? h he with hold | ⟨o, hfo, ho⟩
    · exact hs.items e hold
    · exact hf o e.2 (fun i hi => hs.items _ (ho i hi)) hfo

/-- Making a table out of sound entries. -/
theorem sound_map_table {o : Option Entries} {origin : Origin} {item : Item}
    (h : o.map (Item.table origin) = some item) (ho : ∀ es, o = some es → es.Sound) : item.Sound := by
  obtain ⟨es, hes, rfl⟩ := Option.map_eq_some_iff.1 h
  exact sound_table.2 (ho es hes)

/-- Working on the last of several tables. -/
theorem sound_map_last {elements : List Entries} {last : Entries} {o : Option Entries} {item : Item}
    (hs : (Item.tables elements).Sound) (hlast : elements.getLast? = some last)
    (h : o.map (fun last => Item.tables (elements.dropLast ++ [last])) = some item)
    (ho : ∀ es, o = some es → last.Sound → es.Sound) : item.Sound := by
  obtain ⟨last', hlast', rfl⟩ := Option.map_eq_some_iff.1 h
  rw [sound_tables] at hs ⊢
  intro es hes
  rcases List.mem_append.1 hes with hes | hes
  · exact hs es (List.dropLast_subset _ hes)
  · obtain rfl := List.mem_singleton.1 hes
    exact ho es hlast' (hs last (List.mem_of_getLast? hlast))

theorem Sound.assign? {name : String} {v : Value} (hv : v.Distinct) {path : List String} {es es' : Entries}
    (hs : es.Sound) (h : es.assign? name v path = some es') : es'.Sound := by
  induction path generalizing es es' with
  | nil =>
    rw [Entries.assign?] at h
    refine hs.alter? (fun o item _ hitem => ?_) h
    cases o <;> cases hitem
    exact .value hv
  | cons key path ih =>
    rw [Entries.assign?] at h
    refine hs.alter? (fun o item ho hitem => ?_) h
    split at hitem
    · exact sound_map_table hitem fun sub => ih sound_nil
    · exact sound_map_table hitem fun sub => ih (sound_table.1 (ho _ rfl))
    · split_ifs at hitem
      exact sound_map_table hitem fun sub => ih (sound_table.1 (ho _ rfl))
    · split at hitem
      · cases hitem
      · split_ifs at hitem
        exact sound_map_last (ho _ rfl) ‹_› hitem fun last hlast hs => ih hs hlast
    · cases hitem
    · cases hitem

theorem Sound.beneath? {f : Entries → Option Entries}
    (hf : ∀ es es', Entries.Sound es → f es = some es' → Entries.Sound es')
    {path : List String} {es es' : Entries} (hs : es.Sound) (h : Entries.beneath? f path es = some es') :
    es'.Sound := by
  induction path generalizing es es' with
  | nil => exact hf es es' hs h
  | cons key path ih =>
    rw [Entries.beneath?] at h
    refine hs.alter? (fun o item ho hitem => ?_) h
    split at hitem
    · exact sound_map_table hitem fun sub => ih sound_nil
    · exact sound_map_table hitem fun sub => ih (sound_table.1 (ho _ rfl))
    · split at hitem
      · cases hitem
      · exact sound_map_last (ho _ rfl) ‹_› hitem fun last hlast hs => ih hs hlast
    · cases hitem

/-- A new entry under a new key. -/
theorem Sound.concat {name : String} {item : Item} {es : Entries} (hs : es.Sound)
    (hname : name ∉ es.map Prod.fst) (hitem : item.Sound) : Entries.Sound (es ++ [(name, item)]) where
  distinct := by
    rw [Distinct, List.map_append]
    exact hs.distinct.append (List.nodup_singleton name) (by simpa using hname)
  items e he := by
    rcases List.mem_append.1 he with he | he
    · exact hs.items e he
    · obtain rfl := List.mem_singleton.1 he
      exact hitem

theorem Sound.filter {es : Entries} (hs : es.Sound) (p : String × Item → Bool) :
    Entries.Sound (es.filter p) where
  distinct := (List.filter_sublist.map Prod.fst).nodup hs.distinct
  items e he := hs.items e (List.mem_filter.1 he).1

theorem Sound.openTable? {name : String} {es es' : Entries} (hs : es.Sound)
    (h : es.openTable? name = some es') : es'.Sound := by
  unfold Entries.openTable? at h
  split at h
  · rename_i hnone
    cases h
    refine hs.concat (fun hmem => ?_) (sound_table.2 sound_nil)
    obtain ⟨e, he, rfl⟩ := List.mem_map.1 hmem
    simpa using List.find?_eq_none.1 hnone e he
  · rename_i k sub hfound
    cases h
    have hsub : (Item.table .implied sub).Sound := hs.items _ (List.mem_of_find?_eq_some hfound)
    refine (hs.filter _).concat (fun hmem => ?_) (sound_table.2 (sound_table.1 hsub))
    obtain ⟨e, he, rfl⟩ := List.mem_map.1 hmem
    simpa using (List.mem_filter.1 he).2
  · cases h

theorem Sound.addElement? {name : String} {es es' : Entries} (hs : es.Sound)
    (h : es.addElement? name = some es') : es'.Sound := by
  refine hs.alter? (fun o item ho hitem => ?_) h
  split at hitem
  · cases hitem
    exact sound_tables.2 (by simpa using sound_nil)
  · cases hitem
    have hold := sound_tables.1 (ho _ rfl)
    refine sound_tables.2 fun es hes => ?_
    rcases List.mem_append.1 hes with hes | hes
    · exact hold es hes
    · obtain rfl := List.mem_singleton.1 hes
      exact sound_nil
  · cases hitem

/-- The keys of a finished table are those of its draft. -/
theorem keys_tableOf (es : Entries) : (tableOf es).map Prod.fst = es.map Prod.fst := by
  induction es with
  | nil => rfl
  | cons e es ih => simp [tableOf, ih]

theorem mem_tableOf {es : Entries} {key : String} {v : Value} (h : (key, v) ∈ tableOf es) :
    ∃ item, (key, item) ∈ es ∧ v = item.toValue := by
  induction es with
  | nil => cases h
  | cons e es ih =>
    rcases List.mem_cons.1 h with h | h
    · cases h
      exact ⟨e.2, List.mem_cons_self, rfl⟩
    · obtain ⟨item, hmem, hv⟩ := ih h
      exact ⟨item, List.mem_cons_of_mem _ hmem, hv⟩

end Entries

theorem Item.Sound.distinct_toValue {item : Item} (h : item.Sound) : item.toValue.Distinct := by
  intro t ht
  cases h with
  | value hv => exact hv t ht
  | table hd _ =>
    cases ht
    rwa [Table.Distinct, Entries.keys_tableOf]
  | tables => cases ht

/-- A table without a repeated key, neither in itself nor in a table under one of its keys. -/
structure Table.Sound (t : Table) : Prop where
  distinct : t.Distinct
  values : ∀ e ∈ t, e.2.Distinct

theorem Entries.Sound.tableOf {es : Entries} (h : es.Sound) : (tableOf es).Sound where
  distinct := by
    rw [Table.Distinct, Entries.keys_tableOf]
    exact h.distinct
  values e he := by
    obtain ⟨item, hmem, hv⟩ := Entries.mem_tableOf he
    rw [hv]
    exact (h.items _ hmem).distinct_toValue

/-- Folding steps that may fail keeps what each of them keeps. -/
theorem foldlM_keeps {α β : Type} {f : α → β → Option α} {P : α → Prop} {l : List β}
    (hf : ∀ a, P a → ∀ b ∈ l, ∀ a', f a b = some a' → P a') {a a' : α} (ha : P a)
    (h : l.foldlM f a = some a') : P a' := by
  induction l generalizing a with
  | nil =>
    cases h
    exact ha
  | cons b l ih =>
    rw [List.foldlM_cons] at h
    obtain ⟨c, hc, hl⟩ := Option.bind_eq_some_iff.1 h
    exact ih (fun a ha b hb => hf a ha b (List.mem_cons_of_mem _ hb))
      (hf a ha b List.mem_cons_self c hc) hl

/-- A statement that gives no key a table with a repeated key. -/
def Statement.Distinct : Statement → Prop
  | .assign _ v => v.Distinct
  | .header _ => True
  | .elementHeader _ => True

theorem Draft.sound_add? {d d' : Draft} {s : Statement} (hd : d.root.Sound) (hs : s.Distinct)
    (h : d.add? s = some d') : d'.root.Sound := by
  cases s with
  | assign key v =>
    obtain ⟨root, hroot, rfl⟩ := Option.map_eq_some_iff.1 h
    exact hd.beneath? (fun es es' hes hes' => hes.assign? hs hes') hroot
  | header key =>
    obtain ⟨root, hroot, rfl⟩ := Option.map_eq_some_iff.1 h
    exact hd.beneath? (fun es es' hes hes' => hes.openTable? hes') hroot
  | elementHeader key =>
    obtain ⟨root, hroot, rfl⟩ := Option.map_eq_some_iff.1 h
    exact hd.beneath? (fun es es' hes hes' => hes.addElement? hes') hroot

theorem Table.sound_ofStatements? {statements : List Statement} {t : Table}
    (hs : ∀ s ∈ statements, s.Distinct) (h : Table.ofStatements? statements = some t) : t.Sound := by
  obtain ⟨d, hd, rfl⟩ := Option.map_eq_some_iff.1 h
  have hsound : d.root.Sound := foldlM_keeps (P := fun d : Draft => d.root.Sound)
    (fun d hd s hs' d' h => d.sound_add? hd (hs s hs') h) Entries.sound_nil hd
  exact hsound.tableOf

theorem Table.distinct_ofAssignments? {assignments : List (KeyPath × Value)} {t : Table}
    (h : Table.ofAssignments? assignments = some t) : t.Distinct := by
  obtain ⟨es, hes, rfl⟩ := Option.map_eq_some_iff.1 h
  rw [Table.Distinct, Entries.keys_tableOf]
  have hnil : Entries.Distinct [] := List.nodup_nil
  refine foldlM_keeps (P := Entries.Distinct) (fun es hd a _ es' h => ?_) hnil hes
  cases hp : a.1.parents with
  | nil | cons =>
    rw [hp, Entries.assign?] at h
    exact hd.alter? h

open Text Text.Reader

theorem yields_scalar : scalar.Yields Value.Distinct := by
  unfold scalar
  refine .orElse (.map ?_) (.orElse (.map ?_) (.orElse (.map ?_) (.orElse (.map ?_) (.map ?_))))
  all_goals exact (yields_true _).imp fun a _ t ht => by cases ht

theorem yields_array (value : Reader Value) : (array value).Yields Value.Distinct := by
  have hend : ∀ items : List Value, Yields (do gap; char ']'; return .array items) Value.Distinct :=
    fun items => yields_behind fun _ => yields_behind fun _ =>
      yields_pure fun t ht => by cases ht
  refine yields_behind fun _ => yields_behind fun items => ?_
  dsimp only
  split_ifs
  · exact yields_behind fun _ => hend _
  · exact hend _

theorem yields_inlineTable (value : Reader Value) : (inlineTable value).Yields Value.Distinct := by
  refine yields_behind fun _ => yields_behind fun assignments =>
    yields_behind fun _ => yields_behind fun _ => ?_
  split
  · rename_i t ht
    refine yields_pure fun t' ht' => ?_
    cases ht'
    exact Table.distinct_ofAssignments? ht
  · exact yields_failure

theorem yields_value : value.Yields Value.Distinct := by
  unfold value
  cases nestingLimit with
  | zero => exact yields_scalar
  | succ depth => exact .orElse (yields_array _) (.orElse (yields_inlineTable _) yields_scalar)

theorem yields_statement : statement.Yields Statement.Distinct := by
  refine .orElse ?_ (.orElse ?_ (.map ?_))
  · exact yields_behind fun _ => yields_behind fun _ => yields_behind fun _ =>
      yields_pure trivial
  · exact yields_behind fun _ => yields_behind fun _ => yields_behind fun _ =>
      yields_pure trivial
  · exact yields_behind fun _ => yields_behind fun _ => yields_behind fun _ =>
      yields_value.bind fun _ hv => yields_pure hv

theorem yields_line (ending : Reader Unit) : (line ending).Yields fun o => ∀ s ∈ o, Statement.Distinct s :=
  yields_behind fun _ => yields_statement.maybe.bind fun _ ho => yields_behind fun _ =>
    yields_behind fun _ => yields_behind fun _ => yields_pure ho

theorem yields_document : document.Yields fun statements => ∀ s ∈ statements, s.Distinct := by
  refine yields_behind fun _ => (yields_line newline).many.bind fun lines hlines =>
    (yields_line atEnd).bind fun last hlast => yields_pure ?_
  intro s hs
  obtain ⟨o, ho, rfl⟩ := List.mem_filterMap.1 hs
  rcases List.mem_append.1 ho with ho | ho
  · exact hlines _ ho s rfl
  · exact hlast s (List.mem_singleton.1 ho).symm

/-- No document has a repeated key. -/
theorem Table.sound_ofText? {s : String} {t : Table} (h : Table.ofText? s = some t) : t.Sound := by
  unfold Table.ofText? at h
  split at h
  · rename_i statements rest hd
    exact Table.sound_ofStatements? (yields_document _ _ _ hd) h
  · cases h

end Toml

end TapeMachine
