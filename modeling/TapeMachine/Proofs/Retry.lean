import TapeMachine.Proofs.Exchange
import TapeMachine.Proofs.Safety

/-! Failures that pass. The scripts of a device are disturbed by putting failures into them, and a program
is stepped on regardless of the failures that it meets. A step that meets one of these leaves the state
as it was, and every other step does what it does without them, so deleting the rows of the former from
the drive leaves the undisturbed one. `Disturbed` is what relates the two devices between two steps. -/

namespace TapeMachine

/-- A script with entries put in. Where the plan says `none` the script goes on, with what it stands for
when it is used up; where it says `some` this entry is put in. -/
def splice {α : Type} (rest : α) : List (Option α) → List α → List α
  | [], script => script
  | some a :: plan, script => a :: splice rest plan script
  | none :: plan, b :: script => b :: splice rest plan script
  | none :: plan, [] => rest :: splice rest plan []

structure Disturbance where
  replies : List (Option Reading) := []
  receptions : List (Option Reception) := []

namespace Disturbance

def size (x : Disturbance) : ℕ := x.replies.countP Option.isSome + x.receptions.countP Option.isSome

/-- The step executes this instruction on an entry that was put in. -/
def strikes (x : Disturbance) : Option Instruction → Bool
  | some .input => x.replies.head?.join.isSome
  | some .output => x.receptions.head?.join.isSome
  | _ => false

def behind (x : Disturbance) : Option Instruction → Disturbance
  | some .input => { x with replies := x.replies.tail }
  | some .output => { x with receptions := x.receptions.tail }
  | _ => x

/-- Everything that is put in makes a step fail: a failure of a hook, or the end of the input where that
is an error. -/
structure Passing (eof : EofPolicy) (x : Disturbance) : Prop where
  replies : ∀ a, some a ∈ x.replies → (∃ reason, a = .failure reason) ∨ eof = .error ∧ a = .endOfInput
  receptions : ∀ b, some b ∈ x.receptions → ∃ reason, b = .refuse reason

theorem Passing.behind {eof : EofPolicy} {x : Disturbance} (h : x.Passing eof) (i : Option Instruction) :
    (x.behind i).Passing eof := by
  unfold Disturbance.behind
  split
  · exact ⟨fun a ha => h.replies a (List.mem_of_mem_tail ha), h.receptions⟩
  · exact ⟨h.replies, fun b hb => h.receptions b (List.mem_of_mem_tail hb)⟩
  · exact h

theorem head_of_strikes {α : Type} {l : List (Option α)} (h : l.head?.join.isSome = true) :
    ∃ a rest, l = some a :: rest := by
  rcases l with _ | ⟨_ | a, rest⟩
  · cases h
  · cases h
  · exact ⟨a, rest, rfl⟩

theorem countP_tail {α : Type} (l : List (Option α)) :
    l.tail.countP Option.isSome + l.head?.join.isSome.toNat = l.countP Option.isSome := by
  rcases l with _ | ⟨_ | a, rest⟩ <;> simp

theorem size_behind (x : Disturbance) (i : Option Instruction) :
    (x.behind i).size + (x.strikes i).toNat = x.size := by
  have hr := countP_tail x.replies
  have hw := countP_tail x.receptions
  unfold behind strikes size
  split
  · simp only
    omega
  · simp only
    omega
  · rfl

end Disturbance

/-- The device whose scripts are those of `d` with the entries put in that are still to come. The number
of reads is left out, since the disturbed device has been asked more often. -/
structure Disturbed (x : Disturbance) (d d' : Device) : Prop where
  replies : d'.replies = splice d.afterwards x.replies d.replies
  afterwards : d'.afterwards = d.afterwards
  receptions : d'.receptions = splice .accept x.receptions d.receptions
  written : d'.written = d.written

def Disturbance.apply (x : Disturbance) (d : Device) : Device :=
  { d with
    replies := splice d.afterwards x.replies d.replies
    receptions := splice .accept x.receptions d.receptions }

theorem disturbed_apply (x : Disturbance) (d : Device) : Disturbed x d (x.apply d) := ⟨rfl, rfl, rfl, rfl⟩

namespace Disturbed

variable {x : Disturbance} {d d' : Device}

theorem read_struck (h : Disturbed x d d') {a : Reading} {plan : List (Option Reading)}
    (hx : x.replies = some a :: plan) :
    d'.read.1 = a ∧ Disturbed { x with replies := x.replies.tail } d d'.read.2 := by
  have hr := h.replies
  rw [hx, splice] at hr
  rw [Device.read_cons hr, hx]
  exact ⟨rfl, rfl, h.afterwards, h.receptions, h.written⟩

theorem read_spared (h : Disturbed x d d') (hx : x.replies.head?.join.isSome = false) :
    d'.read.1 = d.read.1 ∧ Disturbed { x with replies := x.replies.tail } d.read.2 d'.read.2 := by
  have hr := h.replies
  rcases hp : x.replies with _ | ⟨_ | a, plan⟩
  · rw [hp, splice] at hr
    cases hd : d.replies with
    | nil =>
      rw [Device.read_nil (hr.trans hd), Device.read_nil hd]
      exact ⟨h.afterwards, hr, h.afterwards, h.receptions, h.written⟩
    | cons b script =>
      rw [Device.read_cons (hr.trans hd), Device.read_cons hd]
      exact ⟨rfl, rfl, h.afterwards, h.receptions, h.written⟩
  · cases hd : d.replies with
    | nil =>
      rw [hp, hd, splice] at hr
      rw [Device.read_cons hr, Device.read_nil hd]
      exact ⟨rfl, by rw [hd]; rfl, h.afterwards, h.receptions, h.written⟩
    | cons b script =>
      rw [hp, hd, splice] at hr
      rw [Device.read_cons hr, Device.read_cons hd]
      exact ⟨rfl, rfl, h.afterwards, h.receptions, h.written⟩
  · rw [hp] at hx
    cases hx

theorem write_struck (h : Disturbed x d d') {reason : String} {plan : List (Option Reception)}
    (hx : x.receptions = some (.refuse reason) :: plan) (b : UInt8) :
    (d'.write b).1 = .failure reason ∧
      Disturbed { x with receptions := x.receptions.tail } d (d'.write b).2 := by
  have hr := h.receptions
  rw [hx, splice] at hr
  rw [Device.write_cons hr, hx]
  exact ⟨rfl, h.replies, h.afterwards, rfl, h.written⟩

theorem write_spared (h : Disturbed x d d') (hx : x.receptions.head?.join.isSome = false) (b : UInt8) :
    (d'.write b).1 = (d.write b).1 ∧
      Disturbed { x with receptions := x.receptions.tail } (d.write b).2 (d'.write b).2 := by
  have hr := h.receptions
  have hw := congrArg (fun written => written.push b) h.written
  rcases hp : x.receptions with _ | ⟨_ | r, plan⟩
  · rw [hp, splice] at hr
    cases hd : d.receptions with
    | nil =>
      rw [Device.write_nil (hr.trans hd), Device.write_nil hd]
      exact ⟨rfl, h.replies, h.afterwards, hr, hw⟩
    | cons r script =>
      rw [Device.write_cons (hr.trans hd), Device.write_cons hd]
      cases r
      · exact ⟨rfl, h.replies, h.afterwards, rfl, hw⟩
      · exact ⟨rfl, h.replies, h.afterwards, rfl, h.written⟩
      · exact ⟨rfl, h.replies, h.afterwards, rfl, hw⟩
  · cases hd : d.receptions with
    | nil =>
      rw [hp, hd, splice] at hr
      rw [Device.write_cons hr, Device.write_nil hd]
      exact ⟨rfl, h.replies, h.afterwards, by rw [hd]; rfl, hw⟩
    | cons r script =>
      rw [hp, hd, splice] at hr
      rw [Device.write_cons hr, Device.write_cons hd]
      cases r
      · exact ⟨rfl, h.replies, h.afterwards, rfl, hw⟩
      · exact ⟨rfl, h.replies, h.afterwards, rfl, h.written⟩
      · exact ⟨rfl, h.replies, h.afterwards, rfl, hw⟩
  · rw [hp] at hx
    cases hx

end Disturbed

section step

variable {e : Engine Device} (he : e.hooks = Device.hooks) {x : Disturbance} {d d' : Device}

include he

/-- A step on an entry put in fails and leaves the state as it was. -/
theorem Disturbed.step_struck (h : Disturbed x d d') (hx : x.Passing e.eof) {s : State}
    (hs : x.strikes (e.program.get? s.cursor.position) = true) :
    ∃ fault d'', e.step s d' = ⟨.error fault, s, d''⟩ ∧
      Disturbed (x.behind (e.program.get? s.cursor.position)) d d'' := by
  cases hi : e.program.get? s.cursor.position with
  | none =>
    rw [hi] at hs
    cases hs
  | some i =>
    rw [hi] at hs
    cases i with
    | input =>
      obtain ⟨a, plan, ha⟩ := Disturbance.head_of_strikes hs
      obtain ⟨hread, hnext⟩ := h.read_struck ha
      have hr : e.hooks.read d' = (a, d'.read.2) := by
        rw [he]
        exact Prod.ext hread rfl
      have hfails : ∃ fault, e.Fails s d' .input fault d'.read.2 := by
        rcases hx.replies a (by rw [ha]; exact List.mem_cons_self) with ⟨reason, rfl⟩ | ⟨heof, rfl⟩
        · exact ⟨_, .unread hr⟩
        · exact ⟨_, .exhausted heof hr⟩
      obtain ⟨fault, hf⟩ := hfails
      exact ⟨fault, _, Engine.step_fault hi hf.perform, hnext⟩
    | output =>
      obtain ⟨r, plan, ha⟩ := Disturbance.head_of_strikes hs
      obtain ⟨reason, rfl⟩ := hx.receptions r (by rw [ha]; exact List.mem_cons_self)
      obtain ⟨hwrite, hnext⟩ := h.write_struck ha (Tape.outputByte s.tape.read)
      have hw : e.hooks.write (Tape.outputByte s.tape.read) d' =
          (.failure reason, (d'.write (Tape.outputByte s.tape.read)).2) := by
        rw [he]
        exact Prod.ext hwrite rfl
      have hf : e.Fails s d' .output _ _ := .unwritten hw
      exact ⟨_, _, Engine.step_fault hi hf.perform, hnext⟩
    | _ => cases hs

theorem Disturbed.step_spared (h : Disturbed x d d') {s : State}
    (hs : x.strikes (e.program.get? s.cursor.position) = false) :
    (e.step s d').result = (e.step s d).result ∧ (e.step s d').state = (e.step s d).state ∧
      Disturbed (x.behind (e.program.get? s.cursor.position)) (e.step s d).world (e.step s d').world := by
  have key : e.calls s d' = e.calls s d ∧
      Disturbed (x.behind (e.program.get? s.cursor.position)) (e.after s d) (e.after s d') := by
    simp only [Engine.calls, Engine.after]
    cases hi : e.program.get? s.cursor.position with
    | none => exact ⟨rfl, h⟩
    | some i =>
      rw [hi] at hs
      cases i with
      | input =>
        obtain ⟨hread, hnext⟩ := h.read_spared hs
        simp only [Engine.callsOf, he]
        exact ⟨congrArg (fun a => [Call.read a]) hread, hnext⟩
      | output =>
        obtain ⟨hwrite, hnext⟩ := h.write_spared hs (Tape.outputByte s.tape.read)
        simp only [Engine.callsOf, he]
        exact ⟨congrArg (fun a => [Call.write _ a]) hwrite, hnext⟩
      | _ => exact ⟨rfl, h⟩
  obtain ⟨hr, hst⟩ := Engine.step_congr ⟨rfl, rfl, rfl⟩ key.1
  rw [Engine.world_of_step, Engine.world_of_step]
  exact ⟨hr, hst, key.2⟩

end step

/-- What is looked at of a step: the result, the state, and the bytes recorded so far. -/
def Outcome.observed (o : Outcome Device) : Outcome (Array UInt8) := ⟨o.result, o.state, o.world.written⟩

namespace Engine

variable {World : Type}

/-- For each of so many steps in a row, whether it meets an entry put in. -/
def struck (e : Engine World) : ℕ → State → World → Disturbance → List Bool
  | 0, _, _, _ => []
  | n + 1, s, w, x =>
    let i := e.program.get? s.cursor.position
    x.strikes i :: e.struck n (e.step s w).state (e.step s w).world (x.behind i)

/-- The rows of so many steps in a row, but for those that meet an entry put in. -/
def spared (e : Engine World) (n : ℕ) (s : State) (w : World) (x : Disturbance) : List (Outcome World) :=
  ((e.drive n s w).zip (e.struck n s w x)).filterMap fun row => if row.2 then none else some row.1

def failures (e : Engine World) (n : ℕ) (s : State) (w : World) (x : Disturbance) : ℕ :=
  (e.struck n s w x).count true

def later (e : Engine World) : ℕ → State → World → State × World
  | 0, s, w => (s, w)
  | n + 1, s, w => e.later n (e.step s w).state (e.step s w).world

section succ

variable {e : Engine World} {s : State} {w : World} {x : Disturbance}

theorem spared_struck (h : x.strikes (e.program.get? s.cursor.position) = true) (n : ℕ) :
    e.spared (n + 1) s w x =
      e.spared n (e.step s w).state (e.step s w).world (x.behind (e.program.get? s.cursor.position)) := by
  simp only [spared, drive, struck, List.zip_cons_cons, List.filterMap_cons, h, if_true]

theorem spared_unstruck (h : x.strikes (e.program.get? s.cursor.position) = false) (n : ℕ) :
    e.spared (n + 1) s w x = e.step s w ::
      e.spared n (e.step s w).state (e.step s w).world (x.behind (e.program.get? s.cursor.position)) := by
  simp only [spared, drive, struck, List.zip_cons_cons, List.filterMap_cons, h, Bool.false_eq_true, if_false]

theorem failures_succ (n : ℕ) : e.failures (n + 1) s w x =
    e.failures n (e.step s w).state (e.step s w).world (x.behind (e.program.get? s.cursor.position)) +
      (x.strikes (e.program.get? s.cursor.position)).toNat := by
  simp only [failures, struck, List.count_cons]
  cases x.strikes (e.program.get? s.cursor.position) <;> rfl

end succ

theorem failures_le (e : Engine World) (n : ℕ) : ∀ (s : State) (w : World) (x : Disturbance),
    e.failures n s w x ≤ n := by
  induction n with
  | zero => exact fun _ _ _ => le_rfl
  | succ n ih =>
    intro s w x
    rw [failures_succ]
    exact Nat.add_le_add (ih _ _ _) (Bool.toNat_le _)

theorem failures_le_size (e : Engine World) (n : ℕ) : ∀ (s : State) (w : World) (x : Disturbance),
    e.failures n s w x ≤ x.size := by
  induction n with
  | zero => exact fun _ _ _ => Nat.zero_le _
  | succ n ih =>
    intro s w x
    rw [failures_succ, ← x.size_behind (e.program.get? s.cursor.position)]
    exact Nat.add_le_add_right (ih _ _ _) _

end Engine

section drive

variable {e : Engine Device} (he : e.hooks = Device.hooks)

include he

/-- Without the rows that meet an entry put in, the disturbed drive is the undisturbed one. -/
theorem Disturbed.spared_eq (n : ℕ) : ∀ {x : Disturbance} {d d' : Device} (s : State), Disturbed x d d' →
    x.Passing e.eof → (e.spared n s d' x).map Outcome.observed =
      (e.drive (n - e.failures n s d' x) s d).map Outcome.observed := by
  induction n with
  | zero => exact fun _ _ _ => rfl
  | succ n ih =>
    intro x d d' s h hx
    rw [Engine.failures_succ]
    cases hs : x.strikes (e.program.get? s.cursor.position) with
    | true =>
      obtain ⟨fault, d'', hstep, hnext⟩ := h.step_struck he hx hs
      rw [Engine.spared_struck hs, hstep, Bool.toNat_true, Nat.add_sub_add_right]
      exact ih s hnext (hx.behind _)
    | false =>
      obtain ⟨hr, hst, hnext⟩ := h.step_spared he hs
      have hrow : (e.step s d').observed = (e.step s d).observed := by
        rw [Outcome.observed, Outcome.observed, hr, hst, hnext.written]
      have hle := e.failures_le n (e.step s d).state (e.step s d').world
        (x.behind (e.program.get? s.cursor.position))
      rw [Engine.spared_unstruck hs, hst, Bool.toNat_false, Nat.add_zero (e.failures _ _ _ _),
        Nat.sub_add_comm hle, Engine.drive, List.map_cons, List.map_cons, hrow]
      exact congrArg _ (ih _ hnext (hx.behind _))

/-- Where the undisturbed drive is, the disturbed one gets to later, but by no more steps than there are
entries put in. -/
theorem Disturbed.later_eq (n : ℕ) : ∀ {x : Disturbance} {d d' : Device} (s : State) (m : ℕ),
    m + x.size = n → Disturbed x d d' → x.Passing e.eof → ∃ m', m ≤ m' ∧ m' ≤ m + x.size ∧
      (e.later m' s d').1 = (e.later m s d).1 ∧
      (e.later m' s d').2.written = (e.later m s d).2.written := by
  induction n with
  | zero =>
    intro x d d' s m hm h _
    obtain rfl : m = 0 := by omega
    exact ⟨0, le_rfl, Nat.zero_le _, rfl, h.written⟩
  | succ n ih =>
    intro x d d' s m hm h hx
    have hsize := x.size_behind (e.program.get? s.cursor.position)
    cases m with
    | zero => exact ⟨0, le_rfl, Nat.zero_le _, rfl, h.written⟩
    | succ m =>
      cases hs : x.strikes (e.program.get? s.cursor.position) with
      | true =>
        rw [hs, Bool.toNat_true] at hsize
        obtain ⟨fault, d'', hstep, hnext⟩ := h.step_struck he hx hs
        obtain ⟨m', hle, hge, hlater⟩ := ih s (m + 1) (by omega) hnext (hx.behind _)
        refine ⟨m' + 1, by omega, by omega, ?_⟩
        rw [Engine.later, hstep]
        exact hlater
      | false =>
        rw [hs, Bool.toNat_false] at hsize
        obtain ⟨-, hst, hnext⟩ := h.step_spared he hs
        obtain ⟨m', hle, hge, hlater⟩ := ih _ m (by omega) hnext (hx.behind _)
        refine ⟨m' + 1, by omega, by omega, ?_⟩
        rw [Engine.later, hst]
        exact hlater

end drive

def Device.engine (p : Program) (jumps : JumpTable) (eof : EofPolicy) : Engine Device :=
  ⟨p, jumps, Device.hooks, eof⟩

/-- Failures that pass are transparent to a caller who steps on. Whatever the program, the table, the
state and the scripts, put failures of the hooks anywhere into the scripts, and ends of the input where
these are errors. Then the drive without the rows that meet one of them is the drive without them, row
for row, and it is behind by as many steps as there were failures, which are no more than were put in. So
where the undisturbed drive is after `m` steps, the disturbed one is after as many, and at most that
many more. -/
theorem retry_transparent (p : Program) (jumps : JumpTable) (eof : EofPolicy) (s : State) (d : Device)
    (x : Disturbance) (hx : x.Passing eof) :
    let e := Device.engine p jumps eof
    (∀ n, (e.spared n s (x.apply d) x).map Outcome.observed =
        (e.drive (n - e.failures n s (x.apply d) x) s d).map Outcome.observed ∧
      e.failures n s (x.apply d) x ≤ x.size) ∧
    ∀ m, ∃ m', m ≤ m' ∧ m' ≤ m + x.size ∧ (e.later m' s (x.apply d)).1 = (e.later m s d).1 ∧
      (e.later m' s (x.apply d)).2.written = (e.later m s d).2.written :=
  ⟨fun n => ⟨(disturbed_apply x d).spared_eq rfl n s hx, Engine.failures_le_size _ n _ _ _⟩,
    fun m => (disturbed_apply x d).later_eq rfl _ s m rfl hx⟩

/-- The program `,.` steps on through a failed read, an end of the input that is an error, and a refused
byte, and comes out where it comes out without them. -/
theorem retry_transparent_busy :
    let e := Device.engine (.ofList [.input, .output]) ⟨#[none, none]⟩ .error
    let d : Device := { replies := [.byte 65] }
    let x : Disturbance := ⟨[some (.failure "busy"), some .endOfInput], [some (.refuse "full")]⟩
    x.Passing .error ∧ x.size = 3 ∧ e.failures 5 {} (x.apply d) x = 3 ∧
      (e.spared 5 {} (x.apply d) x).map Outcome.observed = (e.drive 2 {} d).map Outcome.observed ∧
      (e.later 2 {} d).2.written = #[65] ∧
      ∃ m', 2 ≤ m' ∧ m' ≤ 5 ∧ (e.later m' {} (x.apply d)).2.written = #[65] := by
  intro e d x
  have hx : x.Passing .error := by
    constructor
    · rintro a ha
      rcases List.mem_cons.1 ha with h | h
      · exact .inl ⟨"busy", Option.some.inj h⟩
      · exact .inr ⟨rfl, Option.some.inj (List.mem_singleton.1 h)⟩
    · rintro b hb
      exact ⟨"full", Option.some.inj (List.mem_singleton.1 hb)⟩
  have hwritten : (e.later 2 {} d).2.written = #[65] := by decide
  have hfail : e.failures 5 {} (x.apply d) x = 3 := by decide
  obtain ⟨hrows, hlater⟩ := retry_transparent (.ofList [.input, .output]) ⟨#[none, none]⟩ .error {} d x hx
  obtain ⟨m', hle, hge, -, hm⟩ := hlater 2
  have hrows := (hrows 5).1
  refine ⟨hx, rfl, hfail, ?_, hwritten, m', hle, hge, hm.trans hwritten⟩
  rw [hfail] at hrows
  exact hrows

end TapeMachine
