import TapeMachine.Proofs.CommandLine

/-! Options of the `run` command, as they stand among its arguments. What an option is given is told without
reading the arguments one by one: it is the argument behind the option, or the rest of it behind an equals
sign. Reading them comes to the same. -/

namespace TapeMachine.Cli

/-- The arguments of `run` that take the next one as their value. -/
def valued : List String := ["--file", "-f", "--timeout", "--max-steps", "--eof", "--cell-width"]

/-- Among these arguments an option is given a value. -/
inductive Supplies (option value : String) : List String → Prop
  | apart {rest : List String} : Supplies option value (option :: value :: rest)
  | joined {rest : List String} : Supplies option value ((option ++ "=" ++ value) :: rest)
  | afterPair {argument next : String} {rest : List String} (h : Supplies option value rest)
    (ha : argument ∈ valued) : Supplies option value (argument :: next :: rest)
  | after {argument : String} {rest : List String} (h : Supplies option value rest) (ha : argument ∉ valued)
    (hd : argument ≠ "--") : Supplies option value (argument :: rest)

namespace Argument

theorem ofString_long (p : Parameter) : ofString runParameters ("--" ++ p.name) = .pending p := by
  cases p <;> decide

theorem find?_runParameters (p : Parameter) :
    runParameters.find? (fun q => q.name.toList = p.name.toList) = some p := by
  cases p <;> decide

theorem ofString_joined (p : Parameter) (value : String) :
    ofString runParameters ("--" ++ p.name ++ "=" ++ value) = .option p value := by
  have htext : ("--" ++ p.name ++ "=" ++ value).toList = '-' :: '-' :: (p.name.toList ++ '=' :: value.toList) := by
    simp
  have hname : ∀ c ∈ p.name.toList, (c != '=') = true := by cases p <;> simp [Parameter.name]
  have hhelp : p.name.toList ++ '=' :: value.toList ≠ "help".toList := by
    intro h
    have hin : '=' ∈ "help".toList := h ▸ by simp
    simp at hin
  -- with a first character the cases for shorter arguments are out
  obtain ⟨c, long, hlong⟩ : ∃ c long, p.name.toList ++ '=' :: value.toList = c :: long :=
    List.exists_cons_of_ne_nil (by simp)
  rw [hlong] at hhelp
  unfold ofString
  rw [htext, hlong]
  simp only [if_neg hhelp, List.span_eq_takeWhile_dropWhile]
  simp only [← hlong, List.takeWhile_append_of_pos hname, List.dropWhile_append_of_pos hname,
    List.takeWhile_cons, List.dropWhile_cons, bne_self_eq_false, Bool.false_eq_true, if_false, List.append_nil, find?_runParameters, String.ofList_toList]

theorem ofString_of_mem_valued {argument : String} (h : argument ∈ valued) :
    ∃ p, ofString runParameters argument = .pending p := by
  have hall : ∀ a ∈ valued, (ofString runParameters a matches .pending _) = true := by decide
  have hpending := hall argument h
  cases ha : ofString runParameters argument with
  | pending p => exact ⟨p, rfl⟩
  | _ => simp [ha] at hpending

theorem toList_of_find? {parameters : List Parameter} {argument : String} {long rest : List Char} {p : Parameter}
    (h : argument.toList = '-' :: '-' :: long)
    (hp : parameters.find? (fun p => p.name.toList = long.takeWhile (fun c => c != '=')) = some p)
    (hrest : long.dropWhile (fun c => c != '=') = rest) :
    argument.toList = '-' :: '-' :: (p.name.toList ++ rest) := by
  have hname : p.name.toList = long.takeWhile (fun c => c != '=') := by simpa using List.find?_some hp
  rw [h, hname, ← hrest, List.takeWhile_append_dropWhile]

theorem eq_of_pending {argument : String} {p : Parameter} (h : ofString runParameters argument = .pending p) :
    argument = "--" ++ p.name ∨ argument = "-f" := by
  unfold ofString at h
  split at h
  · cases h
  · cases h
  · rename_i long _ htext
    split_ifs at h
    simp only [List.span_eq_takeWhile_dropWhile] at h
    split at h <;> cases h
    rename_i hrest hp
    refine .inl (String.toList_injective ?_)
    rw [toList_of_find? htext hp hrest]
    simp
  · exact .inr (String.toList_injective ‹_›)
  all_goals cases h

theorem mem_valued_of_pending {argument : String} {p : Parameter}
    (h : ofString runParameters argument = .pending p) : argument ∈ valued := by
  rcases eq_of_pending h with rfl | rfl
  · cases p <;> decide
  · decide

theorem eq_of_option {argument value : String} {p : Parameter} (hp : p ≠ .file)
    (h : ofString runParameters argument = .option p value) : argument = "--" ++ p.name ++ "=" ++ value := by
  unfold ofString at h
  split at h
  · cases h
  · cases h
  · rename_i long _ htext
    split_ifs at h
    simp only [List.span_eq_takeWhile_dropWhile] at h
    split at h <;> cases h
    rename_i c rest hrest hfound
    have hc : c = '=' := by
      have hhead := List.head?_dropWhile_not (fun c => c != '=') long
      simpa [hrest] using hhead
    refine String.toList_injective ?_
    rw [toList_of_find? htext hfound hrest, hc]
    simp
  · cases h
  · cases h
    exact absurd rfl hp
  · cases h
    exact absurd rfl hp
  all_goals cases h

end Argument

theorem supplies_nil {option value : String} : ¬ Supplies option value [] := nofun

theorem supplies_cons {option value argument : String} {arguments : List String} :
    Supplies option value (argument :: arguments) ↔ (argument = option ∧ ∃ rest, arguments = value :: rest) ∨
      argument = option ++ "=" ++ value ∨
      (argument ∈ valued ∧ ∃ next rest, arguments = next :: rest ∧ Supplies option value rest) ∨
      (argument ∉ valued ∧ argument ≠ "--" ∧ Supplies option value arguments) := by
  constructor
  · intro h
    generalize hl : argument :: arguments = l at h
    cases h with
    | apart =>
      obtain ⟨rfl, rfl⟩ := List.cons.inj hl
      exact .inl ⟨rfl, _, rfl⟩
    | joined =>
      obtain ⟨rfl, rfl⟩ := List.cons.inj hl
      exact .inr (.inl rfl)
    | afterPair h ha =>
      obtain ⟨rfl, rfl⟩ := List.cons.inj hl
      exact .inr (.inr (.inl ⟨ha, _, _, rfl, h⟩))
    | after h ha hd =>
      obtain ⟨rfl, rfl⟩ := List.cons.inj hl
      exact .inr (.inr (.inr ⟨ha, hd, h⟩))
  · rintro (⟨rfl, rest, rfl⟩ | rfl | ⟨ha, next, rest, rfl, h⟩ | ⟨ha, hd, h⟩)
    · exact .apart
    · exact .joined
    · exact .afterPair h ha
    · exact .after h ha hd

section first

open Argument

variable {p : Parameter} {v argument : String}

/-- Behind an argument that waits for its value. -/
theorem supplies_pending {q : Parameter} (hp : p ≠ .file) (ha : ofString runParameters argument = .pending q)
    (value : String) (rest : List String) :
    Supplies ("--" ++ p.name) v (argument :: value :: rest) ↔
      (q = p ∧ value = v) ∨ Supplies ("--" ++ p.name) v rest := by
  have hmem := mem_valued_of_pending ha
  rw [supplies_cons]
  constructor
  · rintro (⟨rfl, rest', hrest⟩ | rfl | ⟨-, next, rest', hrest, h⟩ | ⟨hno, -⟩)
    · cases ha.symm.trans (ofString_long p)
      exact .inl ⟨rfl, (List.cons.inj hrest).1⟩
    · cases ha.symm.trans (ofString_joined p v)
    · obtain ⟨-, rfl⟩ := List.cons.inj hrest
      exact .inr h
    · exact absurd hmem hno
  · rintro (⟨rfl, rfl⟩ | h)
    · rcases eq_of_pending ha with hlong | rfl
      · exact .inl ⟨hlong, rest, rfl⟩
      · cases ha
        exact absurd rfl hp
    · exact .inr (.inr (.inl ⟨hmem, value, rest, rfl, h⟩))

/-- Behind an argument that neither waits for a value nor ends the options. -/
theorem supplies_other (ha : ∀ q, ofString runParameters argument ≠ .pending q)
    (hd : ofString runParameters argument ≠ .endOfOptions) (rest : List String) :
    Supplies ("--" ++ p.name) v (argument :: rest) ↔
      argument = "--" ++ p.name ++ "=" ++ v ∨ Supplies ("--" ++ p.name) v rest := by
  have hmem : argument ∉ valued := fun h => by
    obtain ⟨q, hq⟩ := ofString_of_mem_valued h
    exact ha q hq
  have hne : argument ≠ "--" := by
    rintro rfl
    exact hd rfl
  rw [supplies_cons]
  constructor
  · rintro (⟨rfl, -⟩ | h | ⟨h, -⟩ | ⟨-, -, h⟩)
    · exact absurd (ofString_long p) (ha p)
    · exact .inl h
    · exact absurd h hmem
    · exact .inr h
  · rintro (h | h)
    · exact .inr (.inl h)
    · exact .inr (.inr (.inr ⟨hmem, hne, h⟩))

theorem not_supplies_dashes (rest : List String) : ¬ Supplies ("--" ++ p.name) v ("--" :: rest) := by
  rw [supplies_cons]
  rintro (⟨h, -⟩ | h | ⟨h, -⟩ | ⟨-, h, -⟩)
  · have hlong := ofString_long p
    rw [← h] at hlong
    cases hlong
  · have hjoined := ofString_joined p v
    rw [← h] at hjoined
    cases hjoined
  · exact absurd h (by decide)
  · exact h rfl

end first

namespace Split

variable {p : Parameter} {arguments : List String} {s : Split} {v : String}

/-- Reading the arguments finds what an option is given. -/
theorem mem_options_iff (hp : p ≠ .file) (h : ofArguments runParameters arguments = .ok s)
    (hhelp : s.help = false) : (p, v) ∈ s.options ↔ Supplies ("--" ++ p.name) v arguments := by
  fun_induction ofArguments runParameters arguments generalizing s with
  | case1 =>
    cases h
    exact iff_of_false (by simp) supplies_nil
  | case2 argument arguments ha =>
    cases h
    cases Argument.eq_of_endOfOptions ha
    exact iff_of_false (by simp) (not_supplies_dashes _)
  | case3 argument arguments ha =>
    cases h
    cases hhelp
  | case4 argument arguments ha => cases h
  | case5 argument p ha => cases h
  | case6 argument q value arguments ha hv ih =>
    obtain ⟨t, ht, rfl⟩ := eq_of_map_ok h
    rw [supplies_pending hp ha, ← ih ht hhelp]
    simp only [addOption, List.mem_cons, Prod.mk.injEq, eq_comm]
  | case7 argument q value arguments ha hv => cases h
  | case8 argument q value arguments ha ih =>
    obtain ⟨t, ht, rfl⟩ := eq_of_map_ok h
    rw [supplies_other (by simp [ha]) (by simp [ha]), ← ih ht hhelp]
    simp only [addOption, List.mem_cons, Prod.mk.injEq]
    refine or_congr_left ⟨?_, ?_⟩
    · rintro ⟨rfl, rfl⟩
      exact Argument.eq_of_option hp ha
    · rintro rfl
      cases ha.symm.trans (Argument.ofString_joined p v)
      exact ⟨rfl, rfl⟩
  | case9 argument part arguments ha ih =>
    obtain ⟨t, ht, rfl⟩ := eq_of_map_ok h
    rw [supplies_other (by simp [ha]) (by simp [ha]), ← ih ht hhelp]
    refine ⟨.inr, fun h => h.resolve_left ?_⟩
    rintro rfl
    cases ha.symm.trans (Argument.ofString_joined p v)

variable {α : Type} {read : String → Option α} {x : Option α}

theorem mem_options_iff_filter : (p, v) ∈ s.options ↔ (p, v) ∈ s.options.filter (fun o => o.1 = p) := by
  simp

/-- The value of a parameter is read from the only one that it is given. -/
theorem value?_eq_some_iff (h : s.value? p read = .ok x) {a : α} :
    x = some a ↔ ∃ v, (p, v) ∈ s.options ∧ read v = some a := by
  simp only [mem_options_iff_filter]
  unfold value? at h
  split at h
  · rename_i hnil
    cases h
    simp [hnil]
  · rename_i q value hone
    have hq : q = p := by
      have hmem : (q, value) ∈ s.options.filter (fun o => o.1 = p) := hone ▸ List.mem_singleton_self _
      simpa using (List.mem_filter.1 hmem).2
    subst hq
    split at h <;> cases h
    rename_i b hb
    simp [hone, hb]
  · cases h

theorem value?_eq_none_iff (h : s.value? p read = .ok x) : x = none ↔ ∀ v, (p, v) ∉ s.options := by
  constructor
  · rintro rfl v hv
    have hmem := mem_options_iff_filter.1 hv
    rw [filter_of_value?_none h] at hmem
    cases hmem
  · intro hno
    cases hx : x with
    | none => rfl
    | some a =>
      obtain ⟨v, hv, -⟩ := (value?_eq_some_iff h).1 hx
      exact absurd hv (hno v)

end Split

/-- The name of the command gives no option a value. -/
theorem supplies_run {p : Parameter} {v : String} {rest : List String} :
    Supplies ("--" ++ p.name) v ("run" :: rest) ↔ Supplies ("--" ++ p.name) v rest := by
  have ha : Argument.ofString runParameters "run" = .text "run" := by decide
  rw [supplies_other (by simp [ha]) (by simp [ha])]
  refine ⟨fun h => h.resolve_left fun hrun => ?_, .inr⟩
  rw [hrun, Argument.ofString_joined p v] at ha
  cases ha

/-- The arguments give an option a value with this meaning, or do not give it any. -/
inductive Stated {α : Type} (option : String) (means : String → α → Prop) (arguments : List String) :
    Option α → Prop
  | given {value : String} {a : α} (h : Supplies option value arguments) (hv : means value a) :
    Stated option means arguments (some a)
  | absent (h : ∀ value, ¬ Supplies option value arguments) : Stated option means arguments none

/-- What an accepted command has for a parameter is what the arguments state. -/
theorem stated_iff {α : Type} {p : Parameter} {means : String → α → Prop} {read : String → Option α}
    (hread : ∀ v a, read v = some a ↔ means v a) (hp : p ≠ .file) {arguments : List String} {s : Split}
    (hs : Split.ofArguments runParameters arguments = .ok s) (hhelp : s.help = false) {x y : Option α}
    (hx : s.value? p read = .ok x) : Stated ("--" ++ p.name) means ("run" :: arguments) y ↔ x = y := by
  have hmem (v : String) : (p, v) ∈ s.options ↔ Supplies ("--" ++ p.name) v ("run" :: arguments) := by
    rw [supplies_run, Split.mem_options_iff hp hs hhelp]
  cases y with
  | some a =>
    rw [Split.value?_eq_some_iff hx]
    constructor
    · rintro (@⟨v, a, h, hv⟩ | _)
      exact ⟨v, (hmem v).2 h, (hread v a).2 hv⟩
    · rintro ⟨v, h, hv⟩
      exact .given ((hmem v).1 h) ((hread v a).1 hv)
  | none =>
    rw [Split.value?_eq_none_iff hx]
    constructor
    · rintro (_ | h) v hv
      exact h v ((hmem v).1 hv)
    · exact fun h => .absent fun v hv => h v ((hmem v).2 hv)

namespace Command

theorem ofCheckSplit_ne_run {s : Split} {o : RunOptions} : ofCheckSplit s ≠ .ok (.run o) := by
  unfold ofCheckSplit
  cases s.value? .file pathOfName? with
  | error fault => simp [bind, Except.bind]
  | ok file =>
    cases s.help with
    | true => simp [bind, Except.bind, pure, Except.pure]
    | false =>
      simp only [bind, Except.bind, pure, Except.pure, Bool.false_eq_true, if_false]
      cases s.source file <;> simp

theorem ofHelp_ne_run {arguments : List String} {o : RunOptions} : ofHelp arguments ≠ .ok (.run o) := by
  unfold ofHelp
  split
  · simp
  · split_ifs <;> simp
  · simp

theorem exists_split {arguments : List String} {o : RunOptions} (h : ofArguments arguments = .ok (.run o)) :
    ∃ rest s, arguments = "run" :: rest ∧ Split.ofArguments runParameters rest = .ok s ∧
      ofRunSplit s = .ok (.run o) := by
  unfold ofArguments at h
  split at h
  · cases h
  · split at h
    · cases h
    · exact ⟨_, _, rfl, ‹_›, h⟩
  · split at h
    · cases h
    · exact absurd h ofCheckSplit_ne_run
  · exact absurd h ofHelp_ne_run
  · cases h
  · cases h
  · split at h <;> cases h

end Command

end TapeMachine.Cli
