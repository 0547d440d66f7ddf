import TapeMachine.Proofs.Cell
import TapeMachine.Proofs.Dispatch
import TapeMachine.Proofs.Ideal
import TapeMachine.Proofs.Safety

/-! The engine is exact. Each step moves the pointer by at most one and changes the number in a cell by at
most one, or stores a byte there, so after `k` steps nothing is further than that from where it started.
As long as this is short of 64 bits, the engine does what the ideal machine does, step by step. Byte
cells hold bytes for ever. -/

namespace TapeMachine

namespace Ideal

variable {width : CellWidth} {World : Type}

/-- A word and a cell of the same number are so after the same addition, unless the sum wraps round. -/
theorem Cell.value_apply_add {v d : Int64} {c : Cell width} (h : v.toInt = c.value)
    (hlow : -2 ^ 63 ≤ v.toInt + d.toInt) (hhigh : v.toInt + d.toInt < 2 ^ 63) :
    (width.apply (v + d)).toInt = (c + (d.toInt : Cell width)).value := by
  cases width with
  | byte => rw [toInt_byteOf, toInt_add_emod, h, Cell.value_add_residue]
  | unbounded =>
    rw [Cell.value_add_integer, ← h]
    exact toInt_add_of_range hlow hhigh

/-- Adding at most one to a number takes it no further than one from where it was, or to a byte. -/
theorem Cell.value_add_bounds {c : Cell width} {d : ℤ} (hd : d = 1 ∨ d = -1) {k : ℕ}
    (h : -k ≤ c.value ∧ c.value ≤ k + 255) :
    -(k + 1) ≤ (c + (d : Cell width)).value ∧ (c + (d : Cell width)).value ≤ k + 1 + 255 := by
  cases width with
  | byte =>
    have := (c + (d : Cell .byte)).value_bounds
    omega
  | unbounded =>
    rw [Cell.value_add_integer]
    omega

/-- After `k` steps a tape of the engine holds what an ideal one does: the pointer and the cells written
are within `k` of where they started, and the numbers are those of a byte, changed by no more than `k`. -/
structure Tracks (k : ℕ) (t : TapeMachine.Tape) (x : Tape width) : Prop where
  width : t.width = width
  pointer : t.pointer.toInt = x.pointer
  cell : ∀ a : Int64, (t.get a).toInt = (x.cells a.toInt).value
  near : -k ≤ x.pointer ∧ x.pointer ≤ k
  blank : ∀ a : ℤ, a < -k ∨ k < a → x.cells a = 0
  small : ∀ a, -k ≤ (x.cells a).value ∧ (x.cells a).value ≤ k + 255

theorem tracks_fresh (width : CellWidth) : Tracks 0 { width := width } ({} : Tape width) where
  width := rfl
  pointer := rfl
  cell a := by
    rw [Cell.value_zero]
    simp [TapeMachine.Tape.get]
  near := by simp
  blank _ _ := rfl
  small a := by simp [Cell.value_zero]

namespace Tracks

variable {k : ℕ} {t : TapeMachine.Tape} {x : Tape width}

theorem succ (h : Tracks k t x) : Tracks (k + 1) t x where
  width := h.width
  pointer := h.pointer
  cell := h.cell
  near := by have := h.near; omega
  blank a ha := h.blank a (by omega)
  small a := by have := h.small a; omega

theorem read (h : Tracks k t x) : t.read.toInt = x.read.value := by
  rw [TapeMachine.Tape.read, h.cell, h.pointer, Tape.read]

theorem write (h : Tracks k t x) {v : Int64} {c : Cell width} (hv : v.toInt = c.value)
    (hc : -(k + 1) ≤ c.value ∧ c.value ≤ k + 1 + 255) : Tracks (k + 1) (t.write v) (x.write c) where
  width := h.width
  pointer := h.pointer
  cell a := by
    have ha : a.toInt = x.pointer ↔ a = t.pointer := by rw [← h.pointer, Int64.toInt_inj]
    rw [TapeMachine.Tape.get_write, Tape.cells_write]
    simp only [ha]
    split_ifs
    · exact hv
    · exact h.cell a
  near := h.succ.near
  blank a ha := by
    have hne : a ≠ x.pointer := by have := h.near; omega
    rw [Tape.cells_write, if_neg hne]
    exact h.succ.blank a ha
  small a := by
    rw [Tape.cells_write]
    split_ifs
    · exact_mod_cast hc
    · exact h.succ.small a

theorem move (h : Tracks k t x) (hk : k < 2 ^ 63 - 256) {d : Int64} (hd : d.toInt = 1 ∨ d.toInt = -1) :
    Tracks (k + 1) (t.move d) (x.move d.toInt) where
  width := h.width
  pointer := by
    have hn := h.near
    have hp := h.pointer
    rw [TapeMachine.Tape.move, toInt_add_of_range (by omega) (by omega), hp]
    rfl
  cell := h.cell
  near := by
    have hn := h.near
    simp only [Tape.move]
    omega
  blank := h.succ.blank
  small := h.succ.small

theorem adjust (h : Tracks k t x) (hk : k < 2 ^ 63 - 256) {d : Int64} (hd : d.toInt = 1 ∨ d.toInt = -1) :
    Tracks (k + 1) (t.adjust d) (x.adjust d.toInt) := by
  have hs : -k ≤ x.read.value ∧ x.read.value ≤ k + 255 := h.small x.pointer
  have hr := h.read
  refine h.write ?_ (Cell.value_add_bounds hd hs)
  -- A cell holds at most `k + 255`, so one more than that is still a word.
  rw [h.width]
  exact Cell.value_apply_add hr (by omega) (by omega)

end Tracks

/-- A state of the engine after `k` steps that tracks an ideal one at the same instruction. -/
structure Refines (k : ℕ) (s : TapeMachine.State) (x : State width) : Prop where
  tape : Tracks k s.tape x.tape
  cursor : s.cursor.position = x.position

theorem Refines.succ {k : ℕ} {s : TapeMachine.State} {x : State width} (h : Refines k s x) :
    Refines (k + 1) s x := ⟨h.tape.succ, h.cursor⟩

/-- Performing an instruction comes to the same on both machines. It leaves states of which the one
refines the other, where an ideal machine that fails is still in the state that it was in. -/
inductive Agree (k : ℕ) (x : State width) : Outcome World Unit → Except Fault (State width) × World → Prop
  | error (fault : Fault) (w : World) {s : TapeMachine.State} (h : Refines k s x) :
      Agree k x ⟨.error fault, s, w⟩ (.error fault, w)
  | ok (w : World) {s : TapeMachine.State} {x' : State width} (h : Refines k s x') :
      Agree k x ⟨.ok (), s, w⟩ (.ok x', w)

theorem Refines.jump {k : ℕ} {s : TapeMachine.State} {x : State width} (h : Refines k s x)
    (e : Engine World) (b : Bracket) (w : World) : Agree k x (e.jump b s w) (jump e b x, w) := by
  rw [Engine.jump, Ideal.jump, h.cursor]
  cases e.jumps.target? x.position with
  | none => exact .error _ w h
  | some target => exact .ok w ⟨h.tape, rfl⟩

theorem Refines.endOfInput {k : ℕ} {s : TapeMachine.State} {x : State width} (h : Refines k s x)
    (e : Engine World) (w : World) : Agree (k + 1) x (e.endOfInput s w) (endOfInput e x, w) := by
  rw [Engine.endOfInput, Ideal.endOfInput, h.cursor]
  cases e.eof with
  | zero =>
    have hz : (0 : Int64).toInt = (0 : Cell width).value := Cell.value_zero.symm
    exact .ok w ⟨h.tape.write hz (by rw [Cell.value_zero]; omega), h.cursor⟩
  | unchanged => exact .ok w h.succ
  | error => exact .error _ w h.succ

/-- One instruction, on both machines. Each of them asks the hooks for the same, as the byte that is
written out is the same, and a loop test has the same outcome. -/
theorem Refines.perform {k : ℕ} {s : TapeMachine.State} {x : State width} (h : Refines k s x)
    (hk : k < 2 ^ 63 - 256) (e : Engine World) (i : Instruction) (w : World) :
    Agree (k + 1) x (e.perform i s w) (perform e i x w) := by
  have hzero : s.tape.read = 0 ↔ x.tape.read = 0 := by
    rw [← Cell.value_eq_zero, ← h.tape.read, ← Int64.toInt_inj]
    rfl
  cases i with
  | right => exact .ok w ⟨h.tape.move hk (.inl rfl), h.cursor⟩
  | left => exact .ok w ⟨h.tape.move hk (.inr rfl), h.cursor⟩
  | increment => exact .ok w ⟨h.tape.adjust hk (.inl rfl), h.cursor⟩
  | decrement => exact .ok w ⟨h.tape.adjust hk (.inr rfl), h.cursor⟩
  | output =>
    simp only [Engine.perform, Ideal.perform, Cell.toByte_eq h.tape.read, h.cursor]
    rcases e.hooks.write (TapeMachine.Tape.outputByte s.tape.read) w with ⟨_ | _, w'⟩
    · exact .ok w' h.succ
    · exact .error _ w' h.succ
  | input =>
    simp only [Engine.perform, Ideal.perform, h.cursor]
    rcases e.hooks.read w with ⟨b | _ | _, w'⟩
    · have hb := b.toNat_lt
      have hv : (Int64.ofNat b.toNat).toInt = ((b.toNat : ℕ) : Cell width).value := by
        rw [Cell.value_natCast, Int64.toInt_ofNat_of_lt (by omega)]
      exact .ok w' ⟨h.tape.write hv (by rw [Cell.value_natCast]; omega), h.cursor⟩
    · exact h.endOfInput e w'
    · exact .error _ w' h.succ
  | loopStart =>
    simp only [Engine.perform, Ideal.perform, hzero]
    split_ifs
    · exact h.succ.jump e .opening w
    · exact .ok w h.succ
  | loopEnd =>
    simp only [Engine.perform, Ideal.perform, hzero]
    split_ifs
    · exact .ok w h.succ
    · exact h.succ.jump e .closing w

/-- Runs of both machines that stand in such states, or have been stopped in them by the same fault. -/
inductive Follows (e : Engine World) (k : ℕ) : TapeMachine.Run World → Run width World → Prop
  | standing (steps : ℕ) (w : World) {s : TapeMachine.State} {x : State width} (h : Refines k s x) :
      Follows e k (e.stand steps s w) (stand e steps x w)
  | stopped (fault : Fault) (steps : ℕ) (w : World) {s : TapeMachine.State} {x : State width}
      (h : Refines k s x) : Follows e k ⟨.stopped fault, steps, s, w⟩ ⟨.stopped fault, steps, x, w⟩

theorem Follows.next {e : Engine World} {k : ℕ} {r : TapeMachine.Run World} {y : Run width World}
    (h : Follows e k r y) (hk : k < 2 ^ 63 - 256) : Follows e (k + 1) (e.next r) (Ideal.next e y) := by
  cases h with
  | stopped fault steps w h =>
    rw [Engine.next_of_over (over_stopped _ _ _ _)]
    exact .stopped fault steps w h.succ
  | @standing steps w s x h =>
    cases hi : e.program.get? s.cursor.position with
    | none =>
      -- A halted run stays where it is, on either side.
      have hpast : e.program.size ≤ s.cursor.position := Array.getElem?_eq_none_iff.1 hi
      rw [next_stand_past (by rwa [← h.cursor]), Engine.stand_halted hpast,
        Engine.next_of_over (over_halted _ _ _), ← Engine.stand_halted hpast]
      exact .standing steps w h.succ
    | some i =>
      have hi' := hi
      rw [h.cursor] at hi'
      have hagree := h.perform hk e i w
      generalize hp : e.perform i s w = o, hq : perform e i x w = o' at hagree
      cases hagree with
      | error fault w' h' =>
        rw [Engine.next_stand_fault hi hp, next_stand_fault hi' hq]
        exact .stopped fault steps w' h'
      | ok w' h' =>
        rw [Engine.next_stand hi hp, next_stand hi' hq]
        exact .standing (steps + 1) w' ⟨h'.tape, congrArg Nat.succ h'.cursor⟩

/-- The induction over the steps. The count of steps taken is also the bound on how far the tape has
gone, so `Follows.next` applies as long as it is short of 64 bits. -/
theorem Follows.iterate {e : Engine World} {r : TapeMachine.Run World} {y : Run width World}
    (h : Follows e 0 r y) {n : ℕ} (hn : n ≤ 2 ^ 63 - 256) :
    Follows e n (e.next^[n] r) ((Ideal.next e)^[n] y) := by
  induction n with
  | zero => exact h
  | succ n ih =>
    rw [Function.iterate_succ_apply', Function.iterate_succ_apply']
    exact (ih (by omega)).next (by omega)

/-- A run of the engine that is where the ideal one is. At an address that the engine does not have the
ideal tape is blank. -/
structure Exact (r : TapeMachine.Run World) (y : Run width World) : Prop where
  ending : r.ending = y.ending
  steps : r.steps = y.steps
  world : r.world = y.world
  cursor : r.state.cursor.position = y.state.position
  pointer : r.state.tape.pointer.toInt = y.state.tape.pointer
  cell : ∀ a : Int64, (r.state.tape.get a).toInt = (y.state.tape.cells a.toInt).value
  blank : ∀ a : ℤ, (∀ b : Int64, b.toInt ≠ a) → y.state.tape.cells a = 0

theorem Refines.exact {k : ℕ} {s : TapeMachine.State} {x : State width} (h : Refines k s x)
    (hk : k ≤ 2 ^ 63 - 256) (ending : Ending) (steps : ℕ) (w : World) :
    Exact ⟨ending, steps, s, w⟩ ⟨ending, steps, x, w⟩ where
  ending := rfl
  steps := rfl
  world := rfl
  cursor := h.cursor
  pointer := h.tape.pointer
  cell := h.tape.cell
  blank a ha := by
    refine h.tape.blank a ?_
    -- An address within `k` of 0 is a word.
    by_contra hnear
    exact ha (Int64.ofInt a) (Int64.toInt_ofInt_of_le (by omega) (by omega))

theorem Follows.exact {e : Engine World} {k : ℕ} {r : TapeMachine.Run World} {y : Run width World}
    (h : Follows e k r y) (hk : k ≤ 2 ^ 63 - 256) : Exact r y := by
  cases h with
  | stopped fault steps w h => exact h.exact hk _ _ _
  | @standing steps w s x h =>
    by_cases hlt : s.cursor.position < e.program.size
    · rw [Engine.stand_running hlt, stand, if_pos (h.cursor ▸ hlt)]
      exact h.exact hk _ _ _
    · rw [Engine.stand_halted (Nat.not_lt.1 hlt), stand, if_neg (h.cursor ▸ hlt)]
      exact h.exact hk _ _ _

end Ideal

/-- A tape of byte cells that hold bytes. -/
structure Tape.Bytes (t : Tape) : Prop where
  width : t.width = .byte
  cell : ∀ a, 0 ≤ (t.get a).toInt ∧ (t.get a).toInt ≤ 255

namespace Tape.Bytes

theorem fresh : Bytes {} where
  width := rfl
  cell a := by simp [get]

theorem write {t : Tape} (h : t.Bytes) {v : Int64} (hv : 0 ≤ v.toInt ∧ v.toInt ≤ 255) :
    (t.write v).Bytes where
  width := h.width
  cell a := by
    rw [get_write]
    split_ifs
    · exact hv
    · exact h.cell a

/-- Whatever an instruction makes of a tape of bytes is one again. -/
theorem edit {t t' : Tape} (h : t.Bytes) (he : t.Edit t') : t'.Bytes := by
  cases he with
  | keep => exact h
  | move => exact ⟨h.width, h.cell⟩
  | adjust d =>
    apply h.write
    rw [h.width, toInt_byteOf]
    omega
  | store b =>
    have hb := b.toNat_lt
    apply h.write
    rw [Int64.toInt_ofNat_of_lt (by omega)]
    omega

end Tape.Bytes

namespace Machine

variable {World : Type}

/-- Wherever a run with byte cells passes through, its cells hold bytes. -/
theorem Passes.bytes {m : Machine} {eof : EofPolicy} {hooks : Hooks World} {c : Control World}
    {w₀ w : World} {st : Status} {k : ℕ} {s : State}
    (h : m.Passes ⟨.byte, eof⟩ hooks c w₀ st k s w) : s.tape.Bytes := by
  induction h with
  | start => exact .fresh
  | @step k s s' w w' st _ _ hs ih =>
    have he := (m.engine hooks eof).edit_of_step s w
    rw [hs] at he
    exact ih.edit he

/-- That cells and addresses are signed words cannot be observed. Up to `2 ^ 63 - 256` steps a run
stands where that of the ideal machine does, in the same world, which the hooks may have recorded their
calls and the output in. And for any number of steps, under any control, a byte cell holds a byte, so an
output instruction hands over the cell itself. -/
theorem run_matches_ideal (m : Machine) (mode : Mode) (hooks : Hooks World) (w : World) :
    (∀ n ≤ 2 ^ 63 - 256, Ideal.Exact (m.run mode hooks {} n w) (Ideal.run m mode hooks n w)) ∧
    (mode.width = .byte → ∀ c st k s w', m.Passes mode hooks c w st k s w' →
      (∀ a, 0 ≤ (s.tape.get a).toInt ∧ (s.tape.get a).toInt ≤ 255) ∧
      (m.program.get? s.cursor.position = some .output →
        ((m.engine hooks mode.eof).calls s w').map Call.request = [.write s.tape.read.toInt])) := by
  constructor
  · intro n hn
    have hstart : Ideal.Refines 0 { tape := { width := mode.width } }
        ({} : Ideal.State mode.width) := ⟨Ideal.tracks_fresh _, rfl⟩
    rw [run_free]
    exact ((Ideal.Follows.standing 0 w hstart).iterate hn).exact hn
  · obtain ⟨width, eof⟩ := mode
    rintro (rfl : width = .byte) c st k s w' h
    have hb := h.bytes.cell
    refine ⟨hb, fun hi => ?_⟩
    have hread := hb s.tape.pointer
    have hrequest : m.program.request? s = some (.write (s.tape.read.toInt % 256)) := by
      rw [Program.request?, hi]
    rw [Engine.request_calls]
    refine (congrArg Option.toList hrequest).trans ?_
    rw [Tape.read, Int.emod_eq_of_lt (by omega) (by omega)]
    rfl

/-- `-.` goes below 0: the byte cell holds the residue 255 as the ideal one does, and emits it. -/
theorem run_matches_ideal_below_zero : ∃ m : Machine, m.program = .ofList [.decrement, .output] ∧
    2 ≤ 2 ^ 63 - 256 ∧
    Ideal.Exact (m.run {} Device.hooks {} 2 {}) (Ideal.run m {} Device.hooks 2 {}) ∧
    ∃ s, m.Passes {} Device.hooks {} {} .running 1 s {} ∧ m.program.get? s.cursor.position = some .output ∧
      s.tape.read.toInt = 255 ∧
      ((m.engine Device.hooks .zero).calls s {}).map Call.request = [.write s.tape.read.toInt] := by
  let m : Machine := ⟨.ofList [.decrement, .output], ⟨#[none, none]⟩, rfl⟩
  obtain ⟨hexact, hbytes⟩ := run_matches_ideal m {} Device.hooks {}
  have hpass : m.Passes {} Device.hooks {} {} .running 1 _ {} := .step .start rfl rfl
  exact ⟨m, rfl, by decide, hexact 2 (by decide), _, hpass, rfl, by decide,
    (hbytes rfl _ _ _ _ _ hpass).2 rfl⟩

end Machine

end TapeMachine
