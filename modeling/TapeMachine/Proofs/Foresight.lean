import TapeMachine.Proofs.Dispatch
import TapeMachine.Proofs.Safety

/-! What a run depends on. A step asks for at most one reply and consults the policy for the end of the
input only when it meets that end. So the runs on two devices whose next replies agree go through the
same states for as long as they have read no further, whatever comes behind, and a policy that no reply
has called for has made no difference. -/

namespace TapeMachine

variable {World : Type}

namespace Engine

def withEof (e : Engine World) (eof : EofPolicy) : Engine World := { e with eof := eof }

theorem calls_withEof (e : Engine World) (eof : EofPolicy) (s : State) (w : World) :
    (e.withEof eof).calls s w = e.calls s w := rfl

theorem perform_withEof {e : Engine World} {i : Instruction} {s : State} {w : World}
    (h : Call.read .endOfInput ∉ e.callsOf i s w) (eof : EofPolicy) :
    (e.withEof eof).perform i s w = e.perform i s w := by
  cases i with
  | input =>
    simp only [callsOf, List.mem_singleton, Call.read.injEq] at h
    simp only [perform, withEof]
    rcases hr : e.hooks.read w with ⟨_ | _ | _, w'⟩
    · rfl
    · rw [hr] at h
      exact absurd rfl h
    · rfl
  | _ => rfl

/-- A step that does not meet the end of the input is the same under every policy for it. -/
theorem step_withEof {e : Engine World} {s : State} {w : World}
    (h : Call.read .endOfInput ∉ e.calls s w) (eof : EofPolicy) :
    (e.withEof eof).step s w = e.step s w := by
  have hprog : (e.withEof eof).program = e.program := rfl
  unfold calls at h
  unfold step
  rw [hprog]
  cases hi : e.program.get? s.cursor.position with
  | none => rfl
  | some i =>
    rw [hi] at h
    have hp := perform_withEof h eof
    simp only [hp]

/-- A step that meets the end of the input where that is an error fails with it. -/
theorem step_exhausted {e : Engine World} (he : e.eof = .error) {s : State} {w : World}
    (h : Call.read .endOfInput ∈ e.calls s w) :
    (e.step s w).result = .error (.inputExhausted s.cursor.position) := by
  unfold calls at h
  cases hi : e.program.get? s.cursor.position with
  | none => simp [hi] at h
  | some i =>
    cases i with
    | input =>
      rw [hi] at h
      simp only [callsOf, List.mem_singleton, Call.read.injEq] at h
      have hf : e.Fails s w .input (.inputExhausted s.cursor.position) (e.hooks.read w).2 :=
        .exhausted he (Prod.ext h.symm rfl)
      rw [step_fault hi hf.perform]
    | _ => simp [hi, callsOf] at h

theorem step_withEof_of_result {e : Engine World} (he : e.eof = .error) {s : State} {w : World}
    (h : ∀ position, (e.step s w).result ≠ .error (.inputExhausted position)) (eof : EofPolicy) :
    (e.withEof eof).step s w = e.step s w :=
  step_withEof (fun hmem => h _ (step_exhausted he hmem)) eof

/-- Where the end of the input is an error, a run that is not stopped by it is the same under every
other policy. -/
theorem run_withEof {e : Engine World} (he : e.eof = .error) (eof : EofPolicy) (c : Control World)
    (fuel : ℕ) (st : Status) (k : ℕ) (s : State) (w : World)
    (h : ∀ position, (e.run c fuel st k s w).ending ≠ .stopped (.inputExhausted position)) :
    (e.withEof eof).run c fuel st k s w = e.run c fuel st k s w := by
  fun_induction Engine.run e c fuel st k s w with
  | case1 fuel k s w => exact run_halted _ c fuel k s w
  | case2 fuel k s w fault hc => exact run_refused _ hc fuel s
  | case3 k s w hc => exact run_zero _ hc s
  | case4 k s w hc fuel fault s' w' hs =>
    have hsame := step_withEof_of_result he (s := s) (w := w) (fun position hr => by
      rw [hs] at hr
      cases hr
      exact h position rfl) eof
    rw [run_fault hc (hsame.trans hs)]
  | case5 k s w hc fuel st s' w' hs ih =>
    have hsame := step_withEof_of_result he (s := s) (w := w) (fun position hr => by
      rw [hs] at hr
      cases hr) eof
    rw [run_ok hc (hsame.trans hs)]
    exact ih h

end Engine

namespace Device

def upcoming (d : Device) (i : ℕ) : Reading := d.replies[i]?.getD d.afterwards

theorem read_eq (d : Device) :
    d.read = (d.upcoming 0, { d with replies := d.replies.tail, reads := d.reads + 1 }) := by
  cases h : d.replies with
  | nil => simp [read_nil h, upcoming, h]
  | cons reply rest => simp [read_cons h, upcoming, h]

theorem upcoming_read (d : Device) (i : ℕ) : d.read.2.upcoming i = d.upcoming (i + 1) := by
  rw [read_eq, upcoming, List.getElem?_tail]
  rfl

theorem write_input (d : Device) (b : UInt8) : (d.write b).2.reads = d.reads ∧
    (d.write b).2.upcoming = d.upcoming := by
  cases h : d.receptions with
  | nil =>
    rw [write_nil h]
    exact ⟨rfl, rfl⟩
  | cons r rest =>
    rw [write_cons h]
    cases r <;> exact ⟨rfl, rfl⟩

/-- Devices that the next `k` reads cannot tell apart, each under its policy for the end of the input.
They have been used alike and take output alike, and they answer these reads alike, none of them with
the end of the input unless the policies for that are the same. -/
structure Twins (eof eof' : EofPolicy) (k : ℕ) (d d' : Device) : Prop where
  reads : d'.reads = d.reads
  receptions : d'.receptions = d.receptions
  written : d'.written = d.written
  cancelled : d'.cancelled = d.cancelled
  replies : ∀ i < k, d'.upcoming i = d.upcoming i
  policy : eof = eof' ∨ ∀ i < k, d.upcoming i ≠ .endOfInput

namespace Twins

variable {eof eof' : EofPolicy} {k : ℕ} {d d' : Device}

theorem read (h : Twins eof eof' (k + 1) d d') :
    d'.read.1 = d.read.1 ∧ Twins eof eof' k d.read.2 d'.read.2 := by
  constructor
  · rw [read_eq, read_eq d]
    exact h.replies 0 k.succ_pos
  · constructor
    · simp only [read_eq, h.reads]
    · simp only [read_eq, h.receptions]
    · simp only [read_eq, h.written]
    · simp only [read_eq, h.cancelled]
    · intro i hi
      rw [upcoming_read, upcoming_read]
      exact h.replies (i + 1) (by omega)
    · refine h.policy.imp id fun hne i hi => ?_
      rw [upcoming_read]
      exact hne (i + 1) (by omega)

theorem write (h : Twins eof eof' k d d') (b : UInt8) :
    (d'.write b).1 = (d.write b).1 ∧ Twins eof eof' k (d.write b).2 (d'.write b).2 := by
  have hin := d.write_input b
  have hin' := d'.write_input b
  have hout : (d'.write b).1 = (d.write b).1 ∧ (d'.write b).2.receptions = (d.write b).2.receptions ∧
      (d'.write b).2.written = (d.write b).2.written ∧
      (d'.write b).2.cancelled = (d.write b).2.cancelled := by
    cases hr : d.receptions with
    | nil =>
      rw [Device.write_nil hr, Device.write_nil (h.receptions.trans hr)]
      exact ⟨rfl, h.receptions, congrArg (fun x => x.push b) h.written, h.cancelled⟩
    | cons r rest =>
      rw [Device.write_cons hr, Device.write_cons (h.receptions.trans hr)]
      cases r <;> simp [receive, h.written, h.cancelled]
  refine ⟨hout.1, ?_, hout.2.1, hout.2.2.1, hout.2.2.2, ?_, ?_⟩
  · rw [hin.1, hin'.1, h.reads]
  · rw [hin.2, hin'.2]
    exact h.replies
  · rw [hin.2]
    exact h.policy

end Twins

end Device

/-- As long as it may read once more, a step on twins makes the same calls on both, with the same
answers, and leaves twins. -/
theorem Device.Twins.exchange {e : Engine Device} (he : e.hooks = Device.hooks) {eof' : EofPolicy} {k : ℕ}
    {d d' : Device} (h : Device.Twins e.eof eof' k d d') {s : State}
    (hreads : (e.after s d).reads ≤ d.reads + k) :
    (e.withEof eof').calls s d' = e.calls s d ∧
    (e.eof = eof' ∨ Call.read .endOfInput ∉ e.calls s d) ∧
    ∃ k', (e.after s d).reads + k' = d.reads + k ∧
      Device.Twins e.eof eof' k' (e.after s d) ((e.withEof eof').after s d') := by
  simp only [Engine.calls, Engine.after, Engine.withEof] at hreads ⊢
  cases hi : e.program.get? s.cursor.position with
  | none => exact ⟨rfl, .inr (by simp), k, rfl, h⟩
  | some i =>
    rw [hi] at hreads
    cases i with
    | input =>
      simp only [he, Device.hooks, Device.read_eq d] at hreads
      obtain ⟨k, rfl⟩ : ∃ k', k = k' + 1 := ⟨k - 1, by omega⟩
      obtain ⟨hread, hnext⟩ := h.read
      simp only [Engine.callsOf, he]
      refine ⟨congrArg (fun a => [Call.read a]) hread, h.policy.imp id fun hne => ?_, k, ?_, hnext⟩
      · simp only [List.mem_singleton, Call.read.injEq, Device.hooks, Device.read_eq d]
        exact (hne 0 k.succ_pos).symm
      · simp only [Device.hooks, Device.read_eq d]
        omega
    | output =>
      obtain ⟨hwrite, hnext⟩ := h.write (Tape.outputByte s.tape.read)
      simp only [Engine.callsOf, he]
      refine ⟨congrArg (fun a => [Call.write _ a]) hwrite, .inr (by simp), k, ?_, hnext⟩
      rw [← (d.write_input (Tape.outputByte s.tape.read)).1]
      rfl
    | _ => exact ⟨rfl, .inr (by simp [Engine.callsOf]), k, rfl, h⟩

theorem Device.Twins.step {e : Engine Device} (he : e.hooks = Device.hooks) {eof' : EofPolicy} {k : ℕ}
    {d d' : Device} (h : Device.Twins e.eof eof' k d d') {s : State}
    (hreads : (e.step s d).world.reads ≤ d.reads + k) :
    ∃ k' d'', (e.withEof eof').step s d' = ⟨(e.step s d).result, (e.step s d).state, d''⟩ ∧
      (e.step s d).world.reads + k' = d.reads + k ∧
      Device.Twins e.eof eof' k' (e.step s d).world d'' := by
  rw [Engine.world_of_step] at hreads ⊢
  obtain ⟨hcalls, hend, k', hk, hnext⟩ := h.exchange he hreads
  have hsame : (e.withEof eof').step s d = e.step s d := by
    rcases hend with heof | hend
    · rw [← heof]
      rfl
    · exact Engine.step_withEof hend eof'
  have halike : (e.withEof eof').Alike (e.withEof eof') := ⟨rfl, rfl, rfl⟩
  obtain ⟨hr, hs⟩ := Engine.step_congr halike (hcalls.trans (e.calls_withEof eof' s d).symm)
  rw [hsame] at hr hs
  refine ⟨k', _, ?_, hk, hnext⟩
  rw [← hr, ← hs, ← Engine.world_of_step]

/-- Runs that nobody can tell apart who does not look at the replies that are left. -/
structure Run.Alike (r r' : Run Device) : Prop where
  ending : r'.ending = r.ending
  steps : r'.steps = r.steps
  state : r'.state = r.state
  reads : r'.world.reads = r.world.reads
  receptions : r'.world.receptions = r.world.receptions
  written : r'.world.written = r.world.written
  cancelled : r'.world.cancelled = r.world.cancelled

theorem Device.Twins.alike {eof eof' : EofPolicy} {k : ℕ} {d d' : Device} (h : Device.Twins eof eof' k d d')
    (ending : Ending) (steps : ℕ) (s : State) :
    Run.Alike ⟨ending, steps, s, d⟩ ⟨ending, steps, s, d'⟩ :=
  ⟨rfl, rfl, rfl, h.reads, h.receptions, h.written, h.cancelled⟩

theorem Device.Twins.refuse? {eof eof' : EofPolicy} {k : ℕ} {d d' : Device}
    (h : Device.Twins eof eof' k d d') (b : Bounds) (steps : ℕ) :
    b.control.refuse? steps d' = b.control.refuse? steps d := by
  have hflag : b.control.cancelled d' = b.control.cancelled d := congrArg (b.cancellable && ·) h.cancelled
  rw [Control.refuse?, Control.refuse?, hflag]

theorem keeps_reads (n : ℕ) : Device.hooks.Keeps fun d => n ≤ d.reads where
  read d h := by
    simp only [Device.hooks, Device.read_eq]
    omega
  write b d h := by
    rw [Device.hooks, (d.write_input b).1]
    exact h

/-- Runs on twins are alike as long as one of them makes no more reads than the twins agree on. -/
theorem Device.Twins.run {e : Engine Device} (he : e.hooks = Device.hooks) {eof' : EofPolicy} (b : Bounds)
    (fuel : ℕ) (st : Status) (steps : ℕ) (s : State) (d : Device) {k : ℕ} {d' : Device}
    (h : Device.Twins e.eof eof' k d d')
    (hreads : (e.run b.control fuel st steps s d).world.reads ≤ d.reads + k) :
    Run.Alike (e.run b.control fuel st steps s d) ((e.withEof eof').run b.control fuel st steps s d') := by
  generalize hc : b.control = c at *
  fun_induction Engine.run e c fuel st steps s d generalizing k d' with
  | case1 fuel steps s d =>
    rw [Engine.run_halted]
    exact h.alike _ _ _
  | case2 fuel steps s d fault hr =>
    subst hc
    rw [Engine.run_refused _ ((h.refuse? b steps).trans hr)]
    exact h.alike _ _ _
  | case3 steps s d hr =>
    subst hc
    rw [Engine.run_zero _ ((h.refuse? b steps).trans hr)]
    exact h.alike _ _ _
  | case4 steps s d hr fuel fault s' d1 hs =>
    subst hc
    have hr' := (h.refuse? b steps).trans hr
    obtain ⟨k', d1', hs', -, hnext⟩ := h.step he (s := s) (by rwa [hs])
    rw [hs] at hs' hnext
    rw [Engine.run_fault hr' hs']
    exact hnext.alike _ _ _
  | case5 steps s d hr fuel st s' d1 hs ih =>
    subst hc
    have hr' := (h.refuse? b steps).trans hr
    -- The rest of the run only adds to the reads, so the first step has made no more than `k`.
    have hkeep : e.hooks.Keeps fun d => d1.reads ≤ d.reads := he ▸ keeps_reads d1.reads
    have hle := Engine.keeps_run hkeep b.control fuel st (steps + 1) s' (Nat.le_refl d1.reads)
    obtain ⟨k', d1', hs', hk, hnext⟩ := h.step he (s := s) (by rw [hs]; exact hle.trans hreads)
    rw [hs] at hs' hk hnext
    rw [Engine.run_ok hr' hs']
    have hk : d1.reads + k' = d.reads + k := hk
    exact ih hnext (by omega)

namespace Machine

/-- A run foresees nothing. Whatever the bounds, the runs on two devices that the next `k` reads cannot
tell apart are alike after any number of steps in which one of them makes at most `k` reads. So a run
that halts where the end of the input is an error is the same run under every policy for that end. -/
theorem run_foresees_nothing (m : Machine) (width : CellWidth) :
    (∀ (b : Bounds) (eof eof' : EofPolicy) (k : ℕ) (d d' : Device), Device.Twins eof eof' k d d' →
      ∀ n, (m.run ⟨width, eof⟩ Device.hooks b.control n d).world.reads ≤ d.reads + k →
        Run.Alike (m.run ⟨width, eof⟩ Device.hooks b.control n d)
          (m.run ⟨width, eof'⟩ Device.hooks b.control n d')) ∧
    ∀ (World : Type) (hooks : Hooks World) (c : Control World) (w : World) (r : Run World),
      m.Returns ⟨width, .error⟩ hooks c w r → r.ending = .halted →
        ∀ eof, m.Returns ⟨width, eof⟩ hooks c w r := by
  constructor
  · intro b eof eof' k d d' h n hreads
    exact Device.Twins.run (e := m.engine Device.hooks eof) rfl b n _ 0 _ d h hreads
  · rintro World hooks c w r ⟨ho, fuel, hrun⟩ hr eof
    refine ⟨ho, fuel, ?_⟩
    rw [← hrun]
    refine Engine.run_withEof (e := m.engine hooks .error) rfl eof c fuel _ 0 _ w fun position hstop => ?_
    have hend : r.ending = .stopped (.inputExhausted position) := by rw [← hrun]; exact hstop
    rw [hr] at hend
    cases hend

/-- `,.` reads one byte, so it cannot tell a device with no more to serve from one that fails at the next
read, nor what the end of the input would have stored. -/
theorem run_foresees_nothing_echo : ∃ m : Machine, m.program = .ofList [.input, .output] ∧
    let d : Device := { replies := [.byte 65] }
    let d' : Device := { replies := [.byte 65, .failure "closed"] }
    Device.Twins .error .unchanged 1 d d' ∧
    (m.run ⟨.byte, .error⟩ Device.hooks (Bounds.control {}) 9 d).world.reads ≤ d.reads + 1 ∧
    Run.Alike (m.run ⟨.byte, .error⟩ Device.hooks (Bounds.control {}) 9 d)
      (m.run ⟨.byte, .unchanged⟩ Device.hooks (Bounds.control {}) 9 d') ∧
    (m.run ⟨.byte, .error⟩ Device.hooks {} 9 d).ending = .halted ∧
    m.Returns ⟨.byte, .zero⟩ Device.hooks {} d (m.run ⟨.byte, .error⟩ Device.hooks {} 9 d) := by
  let m : Machine := ⟨.ofList [.input, .output], ⟨#[none, none]⟩, rfl⟩
  refine ⟨m, rfl, ?_⟩
  intro d d'
  have htwins : Device.Twins .error .unchanged 1 d d' := by
    refine ⟨rfl, rfl, rfl, rfl, fun i hi => ?_, .inr fun i hi => ?_⟩
    · obtain rfl : i = 0 := by omega
      rfl
    · obtain rfl : i = 0 := by omega
      decide
  have hreads : (m.run ⟨.byte, .error⟩ Device.hooks (Bounds.control {}) 9 d).world.reads ≤ d.reads + 1 := by
    decide
  have hret : m.Returns ⟨.byte, .error⟩ Device.hooks {} d (m.run ⟨.byte, .error⟩ Device.hooks {} 9 d) :=
    ⟨over_halted _ _ _, 9, rfl⟩
  exact ⟨htwins, hreads, (run_foresees_nothing m .byte).1 {} _ _ 1 d d' htwins 9 hreads, rfl,
    (run_foresees_nothing m .byte).2 _ _ _ _ _ hret rfl .zero⟩

end Machine

end TapeMachine
