import TapeMachine.Device
import TapeMachine.Proofs.Cell
import TapeMachine.Proofs.Rounds
import TapeMachine.Proofs.Transcript

/-! Counting loops. Straight code of `>`, `<`, `+` and `-` adds to each cell what it has for the address of
the cell, whatever the cells hold, as long as they hold what their width keeps. If it ends where it started
and takes one from the cell there, a loop around it counts this cell down to 0, and the rounds add up to so
many times what one of them adds. On the way the cell may grow and wrap round; it only matters what it holds
at the brackets. -/

namespace TapeMachine

/-! Cells as what a width keeps of an integer. -/

namespace CellWidth

/-- What a cell of this width holds of an integer. -/
def store (w : CellWidth) (z : ℤ) : Int64 := w.apply (Int64.ofInt z)

variable (w : CellWidth)

theorem apply_add (v d : Int64) : w.apply (v + d) = w.store (v.toInt + d.toInt) := by
  rw [store, Int64.ofInt_add, Int64.ofInt_toInt, Int64.ofInt_toInt]

/-- What has been added before may be added at once. -/
theorem store_add (x y : ℤ) : w.store ((w.store x).toInt + y) = w.store (x + y) := by
  cases w with
  | byte =>
    rw [store, store, store, Int64.ofInt_add, Int64.ofInt_toInt, Int64.ofInt_add]
    exact byteOf_add _ _
  | unbounded =>
    rw [store, store, store, apply, apply, apply, Int64.ofInt_add, Int64.ofInt_toInt, Int64.ofInt_add]

/-- A cell that holds what its width keeps of a number holds any smaller one as it is. -/
theorem toInt_store_of_le {v : Int64} (hv : w.store v.toInt = v) {z : ℤ} (h0 : 0 ≤ z) (hz : z ≤ v.toInt) :
    (w.store z).toInt = z := by
  have hlt := v.toInt_lt
  have hword : (Int64.ofInt z).toInt = z := Int64.toInt_ofInt_of_le (by omega) (by omega)
  cases w with
  | byte =>
    have hv : byteOf v = v := by rwa [store, Int64.ofInt_toInt] at hv
    have hbyte := congrArg Int64.toInt hv
    rw [toInt_byteOf] at hbyte
    rw [store, toInt_byteOf, hword]
    omega
  | unbounded => exact hword

end CellWidth

namespace Tape

/-- All cells hold what the width keeps of them. -/
def Settled (t : Tape) : Prop := ∀ a, t.width.store (t.get a).toInt = t.get a

/-- For byte cells this says that they hold bytes, and for the others nothing. -/
theorem settled_of_bytes {t : Tape}
    (h : t.width = .byte → ∀ a, 0 ≤ (t.get a).toInt ∧ (t.get a).toInt ≤ 255) : t.Settled := by
  intro a
  rw [CellWidth.store, Int64.ofInt_toInt]
  cases hw : t.width with
  | byte =>
    obtain ⟨h0, h1⟩ := h hw a
    rw [← Int64.toInt_inj, toInt_byteOf]
    omega
  | unbounded => rfl

/-- To each cell this much has been added. -/
structure Adds (d : Int64 → ℤ) (t t' : Tape) : Prop where
  width : t'.width = t.width
  get (a : Int64) : t'.get a = t.width.store ((t.get a).toInt + d a)

theorem Adds.settled {d : Int64 → ℤ} {t t' : Tape} (h : Adds d t t') : t'.Settled := by
  intro a
  have := t.width.store_add ((t.get a).toInt + d a) 0
  rwa [add_zero, add_zero, ← h.get, ← h.width] at this

theorem Settled.adds_zero {t : Tape} (h : t.Settled) : Adds (fun _ => 0) t t where
  width := rfl
  get a := by rw [add_zero, h a]

theorem Settled.adds_move {t : Tape} (h : t.Settled) (c : Int64) : Adds (fun _ => 0) t (t.move c) where
  width := rfl
  get := h.adds_zero.get

theorem Settled.adds_adjust {t : Tape} (h : t.Settled) {c : Int64} {z : ℤ} (hc : c.toInt = z) :
    Adds (fun a => if a = t.pointer then z else 0) t (t.adjust c) where
  width := rfl
  get a := by
    rw [adjust, get_write, CellWidth.apply_add, hc]
    by_cases ha : a = t.pointer
    · rw [if_pos ha, if_pos ha, ha, read]
    · rw [if_neg ha, if_neg ha, add_zero, h a]

theorem Adds.trans {d d' : Int64 → ℤ} {t t' t'' : Tape} (h : Adds d t t') (h' : Adds d' t' t'') :
    Adds (fun a => d a + d' a) t t'' where
  width := h'.width.trans h.width
  get a := by rw [h'.get, h.get, h.width, CellWidth.store_add, add_assoc]

end Tape

/-- The instructions that ask nothing of the hooks and go on behind themselves. -/
inductive Stroke where
  | right
  | left
  | increment
  | decrement
deriving DecidableEq, Repr

namespace Stroke

def primitive : Stroke → Primitive
  | right => .right
  | left => .left
  | increment => .increment
  | decrement => .decrement

def instruction (x : Stroke) : Instruction := x.primitive.instruction

/-- How far it moves the pointer. -/
def stride : Stroke → Int64
  | right => 1
  | left => -1
  | increment => 0
  | decrement => 0

/-- What it adds to the cell below the pointer. -/
def gain : Stroke → ℤ
  | right => 0
  | left => 0
  | increment => 1
  | decrement => -1

def edit : Stroke → Tape → Tape
  | right, t => t.move 1
  | left, t => t.move (-1)
  | increment, t => t.adjust 1
  | decrement, t => t.adjust (-1)

theorem act_primitive {World : Type} (x : Stroke) (hooks : Hooks World) (eof : EofPolicy) (position : ℕ)
    (t : Tape) (w : World) : x.primitive.act hooks eof position t w = (.ok (x.edit t), w) := by
  cases x <;> rfl

theorem pointer_edit (x : Stroke) (t : Tape) : (x.edit t).pointer = t.pointer + x.stride := by
  cases x with
  | right | left => rfl
  | increment | decrement => exact (Int64.add_zero t.pointer).symm

theorem adds_edit (x : Stroke) {t : Tape} (h : t.Settled) :
    Tape.Adds (fun a => if a = t.pointer then x.gain else 0) t (x.edit t) := by
  cases x with
  | right | left =>
    simp only [gain, ite_self]
    exact h.adds_move _
  | increment => exact h.adds_adjust (c := 1) (by decide)
  | decrement => exact h.adds_adjust (c := -1) (by decide)

/-! Straight code: where it leads, what it adds, and what it does. -/

/-- The address at which code comes out that starts at `p`. -/
def walk : List Stroke → Int64 → Int64
  | [], p => p
  | x :: code, p => walk code (p + x.stride)

/-- The `+` less the `-` that code executes at the address `a` if it starts at `p`. -/
def net : List Stroke → Int64 → Int64 → ℤ
  | [], _, _ => 0
  | x :: code, p, a => (if a = p then x.gain else 0) + net code (p + x.stride) a

def pass : List Stroke → Tape → Tape
  | [], t => t
  | x :: code, t => pass code (x.edit t)

theorem pointer_pass (code : List Stroke) (t : Tape) : (pass code t).pointer = walk code t.pointer := by
  induction code generalizing t with
  | nil => rfl
  | cons x code ih => rw [pass, walk, ih, pointer_edit]

/-- Straight code adds to each cell what it has for its address. -/
theorem adds_pass (code : List Stroke) {t : Tape} (h : t.Settled) :
    Tape.Adds (net code t.pointer) t (pass code t) := by
  induction code generalizing t with
  | nil => exact h.adds_zero
  | cons x code ih =>
    have hx := x.adds_edit h
    have hrest := ih hx.settled
    rw [pointer_edit] at hrest
    exact hx.trans hrest

def block : List Stroke → Block
  | [] => .done
  | x :: code => .op x.primitive (block code)

theorem text_block (code : List Stroke) : (block code).text = code.map instruction := by
  induction code with
  | nil => rfl
  | cons x code ih => exact congrArg (x.instruction :: ·) ih

/-- The meaning of straight code: it completes, at a cost of one for each instruction. -/
theorem meaning_block {World : Type} (hooks : Hooks World) (eof : EofPolicy) (code : List Stroke)
    (position : ℕ) (t : Tape) (w : World) :
    (block code).meaning hooks eof position t w code.length (.completed (pass code t) w) := by
  induction code generalizing position t with
  | nil => exact .skip
  | cons x code ih =>
    have hx := x.act_primitive hooks eof position t w
    rw [List.length_cons, Nat.add_comm]
    exact .both (.completed hx) (ih (position + 1) (x.edit t))

end Stroke

namespace Stroke

section loop

variable {code : List Stroke} {t : Tape} (ht : t.Settled) (hback : walk code t.pointer = t.pointer)

include hback

theorem pointer_iterate_pass (n : ℕ) : ((pass code)^[n] t).pointer = t.pointer := by
  induction n with
  | zero => rfl
  | succ n ih => rw [Function.iterate_succ_apply', pointer_pass, ih, hback]

include ht

/-- So many passes add so many times what one adds. -/
theorem adds_iterate_pass (n : ℕ) :
    Tape.Adds (fun a => n * net code t.pointer a) t ((pass code)^[n] t) := by
  induction n with
  | zero => simpa using ht.adds_zero
  | succ n ih =>
    have hpass := ih.trans (adds_pass code ih.settled)
    rw [pointer_iterate_pass hback] at hpass
    simpa only [Function.iterate_succ_apply', Nat.cast_succ, add_mul, one_mul] using hpass

variable (hnet : net code t.pointer t.pointer = -1)

include hnet

/-- The cell that is counted down, at the end of a pass. -/
theorem read_iterate_pass {n : ℕ} (hn : n ≤ t.read.toInt) :
    ((pass code)^[n] t).read.toInt = t.read.toInt - n := by
  rw [Tape.read, pointer_iterate_pass hback, (adds_iterate_pass ht hback n).get, hnet, mul_neg_one,
    ← sub_eq_add_neg]
  exact t.width.toInt_store_of_le (ht t.pointer) (by rw [← Tape.read]; omega) (by omega)

theorem meaning_loop {World : Type} (hooks : Hooks World) (eof : EofPolicy) (position : ℕ) (w : World)
    {v : ℕ} (hv : t.read.toInt = v) :
    ((block code).meaning hooks eof position).Loop t w (1 + v * (code.length + 1))
      (.completed ((pass code)^[v] t) w) := by
  -- of the first `v` passes only the last leaves 0, however the cell wraps round within a pass
  have hread {n : ℕ} (hn : n ≤ v) : ((pass code)^[n] t).read = 0 ↔ n = v := by
    have := read_iterate_pass ht hback hnet (n := n) (by omega)
    rw [← Int64.toInt_inj, this, hv]
    simp only [Int64.toInt_zero]
    omega
  refine Meaning.Loop.through (t := fun i => (pass code)^[i] t) (w := fun _ => w) (fun i _ => ?_) (fun i hi => ?_)
    ((hread le_rfl).2 rfl)
  · rw [Function.iterate_succ_apply']
    exact meaning_block hooks eof code position _ w
  · exact (hread hi.le).not.2 hi.ne

end loop

/-- The program of a loop around straight code. -/
def loop (code : List Stroke) : Program := .ofList (.loopStart :: (code.map instruction ++ [.loopEnd]))

theorem text_loop (code : List Stroke) : (Block.loop (block code) .done).text = (loop code).toList := by
  rw [loop, Program.toList_ofList, Block.text, text_block, Block.text]

theorem size_loop (code : List Stroke) : (loop code).size = code.length + 2 := by
  rw [← Program.length_toList, loop, Program.toList_ofList]
  simp

/-- Counting loops halt, and compute the linear map that they spell out. Take straight code that comes back
to where it started and there takes one from the cell, all told, and a tape whose current cell holds `v`,
which is not negative. With byte cells let all cells hold bytes. Then the loop around the code has a table,
and under any hooks it halts after one step and, for each of `v` rounds, as many as the code has instructions
and one more. No hook is called. The pointer is where it was, the current cell is 0, and every other cell
holds what its width keeps of what it held and `v` times what the code adds to it. -/
theorem counting_loop_linear (code : List Stroke) (t : Tape) (hback : walk code t.pointer = t.pointer)
    (hnet : net code t.pointer t.pointer = -1) (hv : 0 ≤ t.read.toInt)
    (hbyte : t.width = .byte → ∀ a, 0 ≤ (t.get a).toInt ∧ (t.get a).toInt ≤ 255) :
    ∃ jumps, JumpTable.build (loop code) = .ok jumps ∧ ∃ t' : Tape,
      (∀ (World : Type) (hooks : Hooks World) (eof : EofPolicy) (w : World) (calls : List Call),
        let e : Engine World := ⟨loop code, jumps, hooks, eof⟩
        let steps := 1 + t.read.toInt.toNat * (code.length + 1)
        e.Returns {} { tape := t } w ⟨.halted, steps, ⟨t', ⟨code.length + 2⟩⟩, w⟩ ∧
        e.recorded.Returns {} { tape := t } (w, calls)
          ⟨.halted, steps, ⟨t', ⟨code.length + 2⟩⟩, (w, calls)⟩) ∧
      t'.width = t.width ∧ t'.pointer = t.pointer ∧ t'.read = 0 ∧
      ∀ a, a ≠ t.pointer →
        t'.get a = t.width.apply (Int64.ofInt ((t.get a).toInt + t.read.toInt * net code t.pointer a)) := by
  have ht := Tape.settled_of_bytes hbyte
  have hbal : Balanced (loop code).toList := text_loop code ▸ Block.balanced_text _
  obtain ⟨jumps, hb⟩ := (JumpTable.build_ok_iff (loop code)).2 hbal
  obtain ⟨v, hv⟩ := Int.eq_ofNat_of_zero_le hv
  have hreturns {World : Type} (hooks : Hooks World) (eof : EofPolicy) (w : World) :
      (Engine.mk (loop code) jumps hooks eof).Returns {} { tape := t } w
        ⟨.halted, 1 + v * (code.length + 1), ⟨(pass code)^[v] t, ⟨code.length + 2⟩⟩, w⟩ := by
    have hreal := Engine.realises_program (e := ⟨loop code, jumps, hooks, eof⟩) hb (text_loop code)
    have hloop := meaning_loop ht hback hnet hooks eof (0 + 1) w hv
    have hrun := hreal.run_completed (.both hloop .skip)
    rw [size_loop] at hrun
    exact (Engine.returns_free _ _ _ _).2 ⟨over_halted _ _ _, _, hrun⟩
  have hadds := adds_iterate_pass ht hback v
  have hread := read_iterate_pass ht hback hnet (n := v) (by omega)
  have hsteps : t.read.toInt.toNat = v := by omega
  refine ⟨jumps, hb, (pass code)^[v] t, fun World hooks eof w calls => ?_, hadds.width,
    pointer_iterate_pass hback v, ?_, fun a _ => ?_⟩
  · rw [hsteps]
    exact ⟨hreturns hooks eof w, hreturns hooks.recorded eof (w, calls)⟩
  · rw [← Int64.toInt_inj, hread, hv, sub_self]
    rfl
  · rw [hadds.get, hv]
    rfl

/-- The loop `[->++<]` on 3, with the pointer at the last address and 255 in the cell behind it, which is at
the first address. It halts after 19 steps and leaves there the residue of 255 and twice 3. -/
theorem counting_loop_linear_wrapping :
    let code : List Stroke := [.decrement, .right, .increment, .increment, .left]
    let t : Tape := ((Tape.write { pointer := Int64.minValue } 255).move (-1)).write 3
    t.pointer = Int64.maxValue ∧ walk code t.pointer = t.pointer ∧ net code t.pointer t.pointer = -1 ∧
    0 ≤ t.read.toInt ∧ (∀ a, 0 ≤ (t.get a).toInt ∧ (t.get a).toInt ≤ 255) ∧
    ∃ jumps, JumpTable.build (.ofSource "[->++<]") = .ok jumps ∧ ∃ t' : Tape,
      (Engine.mk (.ofSource "[->++<]") jumps Device.hooks .zero).Returns {} { tape := t } {}
        ⟨.halted, 19, ⟨t', ⟨7⟩⟩, {}⟩ ∧
      t'.pointer = Int64.maxValue ∧ t'.read = 0 ∧ t'.get Int64.minValue = 5 := by
  intro code t
  have hbytes (a : Int64) : 0 ≤ (t.get a).toInt ∧ (t.get a).toInt ≤ 255 := by
    have hget : t.get a = if a = Int64.maxValue then 3 else if a = Int64.minValue then 255 else 0 := by
      rw [Tape.get_write]
      exact congrArg _ (Tape.get_write _ _ _)
    rw [hget]
    split_ifs <;> decide
  obtain ⟨jumps, hb, t', hreturns, -, hpointer, hread, hget⟩ :=
    counting_loop_linear code t (by decide) (by decide) (by decide) (fun _ => hbytes)
  have hsource : Program.ofSource "[->++<]" = loop code := by decide
  rw [hsource]
  have hsteps : 1 + t.read.toInt.toNat * (code.length + 1) = 19 := by decide
  have hlast : t.pointer = Int64.maxValue := by decide
  have hret := (hreturns Device Device.hooks .zero {} []).1
  rw [hsteps] at hret
  refine ⟨hlast, by decide, by decide, by decide, hbytes, jumps, hb, t', hret, hpointer.trans hlast, hread,
    ?_⟩
  rw [hget Int64.minValue (by decide)]
  decide

end Stroke

end TapeMachine
