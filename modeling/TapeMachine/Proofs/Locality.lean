import TapeMachine.Proofs.Frame
import TapeMachine.Proofs.Retry
import TapeMachine.Proofs.Simulation

/-! Steps are local. One step looks at the cell below the pointer, changes no other one, and moves the pointer
by one at most, so `n` steps get no further than `n` from where they start and change nothing that far away.
They do not see it either: a cell at distance `n` could only be read by a step behind them. Distances are
taken round the ends of the words, where the first address and the last one are neighbours. -/

namespace TapeMachine

/-- The number of moves from one address to the other, the shorter way round. -/
def distance (a b : Int64) : ℕ := (a - b).toInt.natAbs

theorem distance_self (a : Int64) : distance a a = 0 := by
  rw [distance, Int64.sub_self]
  rfl

theorem distance_add (a d : Int64) : distance (a + d) a = d.toInt.natAbs := by
  rw [distance, Int64.add_comm, Int64.add_sub_cancel]

/-- A sum that wraps round is no greater than the exact one. -/
theorem natAbs_add_le (x y : Int64) : (x + y).toInt.natAbs ≤ x.toInt.natAbs + y.toInt.natAbs := by
  by_cases h : -2 ^ 63 ≤ x.toInt + y.toInt ∧ x.toInt + y.toInt < 2 ^ 63
  · rw [toInt_add_of_range h.1 h.2]
    exact Int.natAbs_add_le _ _
  · have hlow := (x + y).le_toInt
    have hhigh := (x + y).toInt_lt
    omega

theorem distance_triangle (a b c : Int64) : distance a c ≤ distance a b + distance b c := by
  have h : a - c = (a - b) + (b - c) := by grind
  rw [distance, h]
  exact natAbs_add_le _ _

/-- The first address and the last one are neighbours. -/
example : distance Int64.minValue Int64.maxValue = 1 := by decide

namespace Tape

/-- What `n` steps can make of a tape. -/
structure Within (n : ℕ) (t t' : Tape) : Prop where
  pointer : distance t'.pointer t.pointer ≤ n
  grows : t.touched ≤ t'.touched
  touched : t'.touched ≤ t.touched + n
  get : ∀ a, n ≤ distance a t.pointer → t'.get a = t.get a

theorem within_zero (t : Tape) : Within 0 t t where
  pointer := (distance_self _).le
  grows := le_rfl
  touched := le_rfl
  get _ _ := rfl

theorem Within.trans {m n : ℕ} {t t' t'' : Tape} (h : Within m t t') (h' : Within n t' t'') :
    Within (m + n) t t'' where
  pointer := by
    have htri := distance_triangle t''.pointer t'.pointer t.pointer
    have hfirst := h.pointer
    have hsecond := h'.pointer
    omega
  grows := h.grows.trans h'.grows
  touched := by
    have hfirst := h.touched
    have hsecond := h'.touched
    omega
  get a ha := by
    -- the pointer has come closer to `a` by `m` at most
    have htri := distance_triangle a t'.pointer t.pointer
    have hfirst := h.pointer
    rw [h'.get a (by omega), h.get a (by omega)]

theorem touched_write (t : Tape) (v : Int64) :
    t.touched ≤ (t.write v).touched ∧ (t.write v).touched ≤ t.touched + 1 :=
  ⟨Std.ExtTreeMap.size_le_size_insert, Std.ExtTreeMap.size_insert_le⟩

theorem Edit.touched {t t' : Tape} (h : t.Edit t') : t.touched ≤ t'.touched ∧ t'.touched ≤ t.touched + 1 := by
  cases h with
  | keep | move => exact ⟨le_rfl, Nat.le_succ _⟩
  | adjust d | store b => exact t.touched_write _

theorem Edit.get_eq {t t' : Tape} (h : t.Edit t') {a : Int64} (ha : a ≠ t.pointer) : t'.get a = t.get a := by
  cases h with
  | keep | move => rfl
  | adjust d | store b => exact (t.get_write _ a).trans (if_neg ha)

theorem Shifted.distance_eq {t t' : Tape} (h : t.Shifted t') : distance t'.pointer t.pointer = 1 := by
  rcases h.pointer with hp | hp
  · rw [hp, distance_add]
    decide
  · rw [hp, Int64.sub_eq_add_neg, distance_add]
    decide

end Tape

variable {World : Type}

namespace Engine

theorem within_step (e : Engine World) (s : State) (w : World) :
    s.tape.Within 1 (e.step s w).state.tape where
  pointer := by
    rcases (e.edit_of_step s w).shape with h | h | h
    · rw [h, distance_self]
      exact Nat.zero_le 1
    · exact h.distance_eq.le
    · rw [h.pointer, distance_self]
      exact Nat.zero_le 1
  grows := (e.edit_of_step s w).touched.1
  touched := (e.edit_of_step s w).touched.2
  get a ha := by
    refine (e.edit_of_step s w).get_eq ?_
    rintro rfl
    rw [distance_self] at ha
    exact absurd ha (by decide)

theorem within_later (e : Engine World) (n : ℕ) : ∀ (s : State) (w : World),
    s.tape.Within n (e.later n s w).1.tape := by
  induction n with
  | zero => exact fun s _ => s.tape.within_zero
  | succ n ih =>
    intro s w
    have h := (e.within_step s w).trans (ih (e.step s w).state (e.step s w).world)
    rwa [Nat.add_comm 1 n] at h

end Engine

/-- Tapes that agree less than `n` away from `p`, with the pointer at one place, at most `k` away from it. -/
structure Tape.Agree (p : Int64) (n k : ℕ) (t t' : Tape) : Prop where
  width : t'.width = t.width
  pointer : t'.pointer = t.pointer
  near : distance t.pointer p ≤ k
  get : ∀ a, distance a p < n → t'.get a = t.get a

/-- As long as the pointer is where the tapes agree, they stay so, but it may get one further away. -/
theorem Tape.carries_agree {p : Int64} {n k : ℕ} (hk : k < n) :
    Tape.Carries (Tape.Agree p n k) (Tape.Agree p n (k + 1)) where
  width h := h.width
  read h := by rw [read, read, h.pointer, h.get _ (h.near.trans_lt hk)]
  keep h := ⟨h.width, h.pointer, h.near.trans k.le_succ, h.get⟩
  move {t t' d} h hd := by
    have hmove := (t.shifted_move hd).distance_eq
    have htri := distance_triangle (t.move d).pointer t.pointer p
    have hnear := h.near
    exact ⟨h.width, congrArg (· + d) h.pointer, by omega, h.get⟩
  write h v := by
    refine ⟨h.width, h.pointer, h.near.trans k.le_succ, fun a ha => ?_⟩
    rw [get_write, get_write, h.pointer, h.get a ha]

/-- What is seen of a step but for the cells: the result, the cursor, the pointer and the world. -/
def Outcome.sight (o : Outcome World) : Except Fault Status × Cursor × Int64 × World :=
  (o.result, o.state.cursor, o.state.tape.pointer, o.world)

namespace Engine

/-- The induction over the steps. Each takes the pointer one further away, so they go on alike for as many as
there are left up to `n`. -/
theorem drive_agree (e : Engine World) {p : Int64} {n : ℕ} (m : ℕ) : ∀ {k : ℕ} {s s' : State} (w : World),
    k + m ≤ n → s.Related (Tape.Agree p n k) s' →
      (e.drive m s' w).map Outcome.sight = (e.drive m s w).map Outcome.sight ∧
      (e.later m s w).1.Related (Tape.Agree p n (k + m)) (e.later m s' w).1 := by
  induction m with
  | zero => exact fun _ _ h => ⟨rfl, h⟩
  | succ m ih =>
    intro k s s' w hm h
    obtain ⟨hresult, hworld, hstate⟩ := step_related (Tape.carries_agree (by omega)) h e w
    obtain ⟨hrows, hlater⟩ := ih (e.step s w).world (by omega) hstate
    have hrow : (e.step s' w).sight = (e.step s w).sight := by
      rw [Outcome.sight, Outcome.sight, hresult, hworld, hstate.cursor, hstate.tape.pointer]
    rw [Nat.add_right_comm] at hlater
    rw [drive, drive, later, later, List.map_cons, List.map_cons, hrow, hworld, hrows]
    exact ⟨rfl, hlater⟩

end Engine

/-- Steps are local. Step any program, with any table and any hooks, `n` times from a tape with the pointer at
`p`. The pointer is then within `n` of `p`, at most `n` more cells are touched, and those at distance `n` or
more hold what they held. Step it as often on a tape with the same pointer and width that holds the same at
every distance less than `n`. Row for row the results, cursors, pointers, worlds and calls of the hooks are
the same, and the tapes hold the same as near as that in the end. -/
theorem steps_stay_local (e : Engine World) (n : ℕ) (s : State) (w : World) :
    s.tape.Within n (e.later n s w).1.tape ∧
    ∀ t : Tape, t.width = s.tape.width → t.pointer = s.tape.pointer →
      (∀ a, distance a s.tape.pointer < n → t.get a = s.tape.get a) →
      (e.drive n { s with tape := t } w).map Outcome.sight = (e.drive n s w).map Outcome.sight ∧
      (∀ calls : List Call, (e.recorded.drive n { s with tape := t } (w, calls)).map Outcome.sight =
        (e.recorded.drive n s (w, calls)).map Outcome.sight) ∧
      ∀ a, distance a s.tape.pointer < n →
        (e.later n { s with tape := t } w).1.tape.get a = (e.later n s w).1.tape.get a := by
  refine ⟨e.within_later n s w, fun t hwidth hpointer hget => ?_⟩
  have hstart : s.Related (Tape.Agree s.tape.pointer n 0) { s with tape := t } :=
    ⟨⟨hwidth, hpointer, (distance_self _).le, hget⟩, rfl⟩
  obtain ⟨hrows, hlater⟩ := e.drive_agree n w (Nat.zero_add n).le hstart
  exact ⟨hrows, fun calls => (e.recorded.drive_agree n (w, calls) (Nat.zero_add n).le hstart).1,
    hlater.tape.get⟩

/-- The program `>.>.` on two tapes with the pointer at the last address, which hold 65 in the next cell, at
the first address, and one of them 9 in the cell behind that. After two steps they have come out alike, after
four they have not. -/
theorem steps_stay_local_round_end :
    let e : Engine Device := ⟨.ofSource ">.>.", ⟨#[none, none, none, none]⟩, Device.hooks, .zero⟩
    let t : Tape := (Tape.write { pointer := Int64.minValue } 65).move (-1)
    let t' : Tape := (((Tape.write { pointer := Int64.minValue + 1 } 9).move (-1)).write 65).move (-1)
    t'.width = t.width ∧ t.pointer = Int64.maxValue ∧ t'.pointer = t.pointer ∧
    (∀ a, distance a t.pointer < 2 → t'.get a = t.get a) ∧
    t'.get (Int64.minValue + 1) ≠ t.get (Int64.minValue + 1) ∧
    (e.drive 2 { tape := t' } {}).map Outcome.sight = (e.drive 2 { tape := t } {}).map Outcome.sight ∧
    (e.later 2 { tape := t } {}).2.written = #[65] ∧
    distance (e.later 2 { tape := t } {}).1.tape.pointer Int64.maxValue ≤ 2 ∧
    (e.later 4 { tape := t } {}).2.written = #[65, 0] ∧ (e.later 4 { tape := t' } {}).2.written = #[65, 9] := by
  intro e t t'
  have hget (a : Int64) (ha : distance a t.pointer < 2) : t'.get a = t.get a := by
    have hne : a ≠ Int64.minValue + 1 := by
      rintro rfl
      exact absurd ha (by decide)
    have h : t'.get a = if a = Int64.minValue then 65 else if a = Int64.minValue + 1 then 9 else 0 :=
      (Tape.get_write _ _ a).trans (congrArg _ (Tape.get_write _ _ a))
    rw [h, if_neg hne]
    exact (Tape.get_write { pointer := Int64.minValue } 65 a).symm
  obtain ⟨hwithin, htwo⟩ := steps_stay_local e 2 { tape := t } {}
  have hpointer : t'.pointer = t.pointer := by decide
  exact ⟨rfl, by decide, hpointer, hget, by decide, (htwo t' rfl hpointer hget).1, by decide,
    hwithin.pointer, by decide, by decide⟩

end TapeMachine
