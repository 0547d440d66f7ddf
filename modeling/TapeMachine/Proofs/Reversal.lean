import TapeMachine.Proofs.Cell
import TapeMachine.Proofs.Folding
import TapeMachine.Proofs.Rounds
import TapeMachine.Proofs.Serving
import TapeMachine.Proofs.TotalMap

/-! The program `<,[<,]>[.>]`, which reverses its input. The first loop lays the bytes out to the left of the
origin, one address further on in each round, up to the first 0 or the 0 that the end of the input stores. The
second loop goes back over them and writes each. It stops at the origin, which has never been written, so there
must be fewer bytes than there are addresses to the left of it. -/

namespace TapeMachine

namespace Reversal

section move

variable (t : Tape) (d a v : Int64)

theorem pointer_write : (t.write v).pointer = t.pointer := rfl

theorem pointer_move : (t.move d).pointer = t.pointer + d := rfl

theorem cells_move : (t.move d).cells = t.cells := rfl

theorem get_move : (t.move d).get a = t.get a := rfl

theorem touched_move : (t.move d).touched = t.touched := rfl

end move

/-- Where the read of this number is stored. -/
def address (i : ℕ) : Int64 := Int64.ofInt (-(i + 1 : ℕ))

theorem address_eq (i : ℕ) : address i = Int64.ofInt (-i) + -1 := by
  have hsum : -((i + 1 : ℕ) : ℤ) = -i + -1 := by omega
  exact (congrArg Int64.ofInt hsum).trans (Int64.ofInt_add _ _)

theorem toInt_address {i : ℕ} (hi : i < 2 ^ 63) : (address i).toInt = -(i + 1 : ℕ) :=
  Int64.toInt_ofInt_of_le (by omega) (by omega)

theorem address_injOn {k : ℕ} (hk : k ≤ 2 ^ 63) : Set.InjOn address (Finset.range k) := by
  intro i hi j hj h
  simp only [Finset.coe_range, Set.mem_Iio] at hi hj
  have hword := congrArg Int64.toInt h
  rw [toInt_address (by omega), toInt_address (by omega)] at hword
  omega

section layout

variable (width : CellWidth) (x : List UInt8)

/-- The tape after `k` reads, each to the left of the one before. -/
def tape : ℕ → Tape
  | 0 => { width := width }
  | k + 1 => ((tape k).move (-1)).write (Int64.ofNat (x.getD k 0).toNat)

theorem pointer_tape (k : ℕ) : (tape width x k).pointer = Int64.ofInt (-k) := by
  induction k with
  | zero =>
    rw [Nat.cast_zero, neg_zero]
    rfl
  | succ k ih =>
    rw [tape, pointer_write, pointer_move, ih]
    exact (address_eq k).symm

theorem pointer_tape_left (k : ℕ) : ((tape width x k).move (-1)).pointer = address k := by
  rw [pointer_move, pointer_tape, address_eq]

theorem mem_tape (k : ℕ) (a : Int64) : a ∈ (tape width x k).cells ↔ ∃ i < k, address i = a := by
  induction k with
  | zero => simp [tape]
  | succ k ih =>
    rw [tape, Tape.mem_write, pointer_tape_left, cells_move, ih, Nat.exists_lt_succ_right, eq_comm, or_comm]

theorem get_tape {k i : ℕ} (hk : k ≤ 2 ^ 63) (hi : i < k) :
    (tape width x k).get (address i) = Int64.ofNat (x.getD i 0).toNat := by
  induction k with
  | zero => exact absurd hi (Nat.not_lt_zero i)
  | succ k ih =>
    rw [tape, Tape.get_write, pointer_tape_left]
    split_ifs with h
    · have hik := address_injOn hk (by simpa using hi) (by simp) h
      rw [hik]
    · have hne : i ≠ k := fun hik => h (congrArg address hik)
      rw [get_move, ih (by omega) (by omega)]

theorem read_tape (k : ℕ) : (tape width x (k + 1)).read = Int64.ofNat (x.getD k 0).toNat := by
  rw [tape, Tape.read_write]

theorem get_tape_of_ne {k : ℕ} {a : Int64} (h : ∀ i < k, address i ≠ a) : (tape width x k).get a = 0 := by
  refine Std.ExtTreeMap.getD_eq_fallback fun hmem => ?_
  obtain ⟨i, hi, rfl⟩ := (mem_tape width x k a).1 hmem
  exact h i hi rfl

theorem touched_tape {k : ℕ} (hk : k ≤ 2 ^ 63) : (tape width x k).touched = k := by
  have hcells (a : Int64) : a ∈ (tape width x k).cells ↔ a ∈ (Finset.range k).image address := by
    rw [mem_tape, Finset.mem_image]
    simp only [Finset.mem_range]
  rw [Tape.touched_eq_card hcells, Finset.card_image_of_injOn (address_injOn hk), Finset.card_range]

/-- The same tape with the pointer on its way back, `j` addresses to the right of where the second loop starts. -/
def back (n j : ℕ) : Tape := (tape width x (n + 1)).move (Int64.ofInt (j + 1 : ℕ))

theorem move_back (n j : ℕ) : (back width x n j).move 1 = back width x n (j + 1) := by
  rw [back, Tape.move_move, back]
  exact congrArg _ (Int64.ofInt_add ((j + 1 : ℕ) : ℤ) 1).symm

theorem pointer_back (n j : ℕ) : (back width x n j).pointer = Int64.ofInt (j - n) := by
  have hsum : -((n + 1 : ℕ) : ℤ) + (j + 1 : ℕ) = j - n := by omega
  rw [back, pointer_move, pointer_tape]
  exact (Int64.ofInt_add _ _).symm.trans (congrArg Int64.ofInt hsum)

theorem read_back {n j : ℕ} (hn : n + 1 ≤ 2 ^ 63) (hj : j < n) :
    (back width x n j).read = Int64.ofNat (x.getD (n - 1 - j) 0).toNat := by
  have haddress : Int64.ofInt (j - n) = address (n - 1 - j) := congrArg Int64.ofInt (by omega)
  rw [Tape.read, pointer_back, haddress, back, get_move, get_tape width x hn (by omega)]

/-- The origin has never been written. -/
theorem read_back_self {n : ℕ} (hn : n + 1 ≤ 2 ^ 63) : (back width x n n).read = 0 := by
  rw [Tape.read, pointer_back, sub_self, back, get_move]
  refine get_tape_of_ne width x fun i hi h => ?_
  have hword := congrArg Int64.toInt h
  rw [toInt_address (by omega)] at hword
  change -((i + 1 : ℕ) : ℤ) = 0 at hword
  omega

end layout

/-! What the program means. -/

def fetch : Block := .op .left (.op .input .done)

def emit : Block := .op .output (.op .right .done)

def block : Block := .op .left (.op .input (.loop fetch (.op .right (.loop emit .done))))

section meaning

variable (width : CellWidth) (x : List UInt8)

theorem act_left (position i : ℕ) (w : Device) :
    Primitive.left.act Device.hooks .zero position (tape width x i) w = (.ok ((tape width x i).move (-1)), w) := rfl

theorem act_right (position n j : ℕ) (w : Device) :
    Primitive.right.act Device.hooks .zero position (back width x n j) w = (.ok (back width x n (j + 1)), w) := by
  rw [← move_back]
  rfl

theorem act_input (position i : ℕ) :
    Primitive.input.act Device.hooks .zero position ((tape width x i).move (-1)) (.serving x i []) =
      (.ok (tape width x (i + 1)), .serving x (i + 1) []) :=
  Primitive.act_input_zero _ _ _ _

/-- A round of the first loop reads the next byte into the cell to the left. -/
theorem meaning_fetch (position i : ℕ) :
    fetch.meaning Device.hooks .zero position (tape width x i) (.serving x i []) 2
      (.completed (tape width x (i + 1)) (.serving x (i + 1) [])) := by
  have hleft := Meaning.Act.completed (act_left width x position i (.serving x i []))
  have hread := Meaning.Act.completed (act_input width x (position + 1) i)
  have hround := Meaning.Then.both hleft (Meaning.Then.both hread Meaning.Skip.skip)
  exact hround

variable {x} {y : List UInt8} (hy : y <+: x) (hlen : y.length + 1 ≤ 2 ^ 63)

include hy hlen

theorem read_back_reverse {j : ℕ} (hj : j < y.reverse.length) :
    (back width x y.length j).read = Int64.ofNat y.reverse[j].toNat := by
  have hlt : y.length - 1 - j < y.length := by
    rw [List.length_reverse] at hj
    omega
  rw [read_back width x hlen (by rwa [List.length_reverse] at hj), List.getElem_reverse, prefix_getD hy hlt]

/-- A round of the second loop writes the byte in the cell, which is the next one from the end. -/
theorem meaning_emit (position : ℕ) {j : ℕ} (hj : j < y.reverse.length) :
    emit.meaning Device.hooks .zero position (back width x y.length j)
      (.serving x (y.length + 1) (y.reverse.take j)) 2
      (.completed (back width x y.length (j + 1)) (.serving x (y.length + 1) (y.reverse.take (j + 1)))) := by
  have hwrite := Meaning.Act.completed (Primitive.act_output .zero position (back width x y.length j)
    (x := x) (i := y.length + 1) (y.reverse.take j))
  rw [read_back_reverse width hy hlen hj, outputByte_ofNat_toNat, List.take_append_getElem hj] at hwrite
  have hright := Meaning.Act.completed (act_right width x (position + 1) y.length j
    (.serving x (y.length + 1) (y.reverse.take (j + 1))))
  have hround := Meaning.Then.both hwrite (Meaning.Then.both hright Meaning.Skip.skip)
  exact hround

theorem meaning_block (hne : ∀ b ∈ y, b ≠ 0) (h0 : x.getD y.length 0 = 0) :
    block.meaning Device.hooks .zero 0 { width := width } (.ofBytes x) (5 + 6 * y.length)
      (.completed (back width x y.length y.length) (.serving x (y.length + 1) y.reverse)) := by
  have hleft := Meaning.Act.completed (act_left width x 0 0 (.serving x 0 []))
  have hread := Meaning.Act.completed (act_input width x 1 0)
  have hfirst := Meaning.Loop.through (t := fun i => tape width x (i + 1)) (w := fun i => Device.serving x (i + 1) [])
    (n := y.length) (fun i _ => meaning_fetch width x 3 (i + 1))
    (fun i hi => by
      rw [read_tape, ne_eq, ofNat_toNat_eq_zero, prefix_getD hy hi]
      exact hne _ (List.getElem_mem hi))
    (by rw [read_tape, h0]; rfl)
  have hright : Meaning.Act (Primitive.right.act Device.hooks .zero 6) (tape width x (y.length + 1))
      (.serving x (y.length + 1) []) 1 (.completed (back width x y.length 0) (.serving x (y.length + 1) [])) :=
    .completed rfl
  have hsecond := Meaning.Loop.through (t := back width x y.length)
    (w := fun j => Device.serving x (y.length + 1) (y.reverse.take j)) (n := y.length)
    (fun j hj => meaning_emit width hy hlen 8 (by rwa [List.length_reverse]))
    (fun j hj => by
      have hj : j < y.reverse.length := by rwa [List.length_reverse]
      rw [read_back_reverse width hy hlen hj, ne_eq, ofNat_toNat_eq_zero]
      exact hne _ (List.mem_reverse.1 (List.getElem_mem hj)))
    (read_back_self width x hlen)
  have hall : y.reverse.take y.length = y.reverse := List.take_of_length_le (by rw [List.length_reverse])
  rw [hall] at hsecond
  rw [show 5 + 6 * y.length = 1 + (1 + (1 + y.length * (2 + 1) + (1 + (1 + y.length * (2 + 1) + 0)))) by omega]
  exact .both hleft (.both hread (.both hfirst (.both hright (.both hsecond .skip))))

end meaning

end Reversal

namespace Machine

/-- The machine of `<,[<,]>[.>]` reverses its input, where the end of the input stores 0. Let `y` be the bytes
before the first 0. The run halts after five steps and six for each byte of `y`, has read one byte more, and
has written `y` backwards. It leaves the pointer at the origin, and `y` to the left of it, the first byte
nearest. One cell more has been touched, and holds 0 like all others. -/
theorem reverses_input : ∃ m : Machine, Machine.ofSource "<,[<,]>[.>]" = .ok m ∧
    ∀ (width : CellWidth) (x : List UInt8), x.length < 2 ^ 63 - 1 →
      let y := x.takeWhile (· ≠ 0)
      ∃ s d, m.Returns ⟨width, .zero⟩ Device.hooks {} (.ofBytes x) ⟨.halted, 5 + 6 * y.length, s, d⟩ ∧
        d.written.toList = y.reverse ∧ d.reads = y.length + 1 ∧
        s.tape.pointer = 0 ∧ s.tape.touched = y.length + 1 ∧
        (∀ (i : ℕ) (hi : i < y.length), (s.tape.get (Int64.ofInt (-(i + 1 : ℕ)))).toInt = y[i].toNat) ∧
        ∀ a, (∀ i < y.length, a ≠ Int64.ofInt (-(i + 1 : ℕ))) → s.tape.get a = 0 := by
  let m : Machine := ⟨.ofSource "<,[<,]>[.>]",
    ⟨#[none, none, some 5, none, none, some 2, none, some 10, none, none, some 7]⟩, rfl⟩
  have htext : Reversal.block.text = m.program.toList := rfl
  refine ⟨m, rfl, fun width x hx => ?_⟩
  intro y
  have hy : y <+: x := List.takeWhile_prefix _
  have hlen : y.length + 1 ≤ 2 ^ 63 := by
    have := hy.length_le
    omega
  have hne : ∀ b ∈ y, b ≠ 0 := fun b hb => by simpa using List.mem_takeWhile_imp hb
  have h0 : x.getD y.length 0 = 0 := getD_takeWhile_length x
  have hreturns := returns_completed ⟨width, .zero⟩ htext (Reversal.meaning_block width hy hlen hne h0)
  refine ⟨_, _, hreturns, rfl, rfl, ?_, ?_, fun i hi => ?_, fun a ha => ?_⟩
  · rw [Reversal.pointer_back, sub_self]
    rfl
  · rw [Reversal.back, Reversal.touched_move, Reversal.touched_tape width x hlen]
  · rw [Reversal.back, Reversal.get_move]
    have hcell := Reversal.get_tape width x hlen (hi.trans y.length.lt_succ_self)
    rw [prefix_getD hy hi] at hcell
    exact (congrArg Int64.toInt hcell).trans (toInt_ofNat_toNat _)
  · rw [Reversal.back, Reversal.get_move]
    -- the last cell that was written holds the 0 that ended the first loop
    by_cases hlast : a = Reversal.address y.length
    · rw [hlast, Reversal.get_tape width x hlen y.length.lt_succ_self, h0]
      rfl
    · refine Reversal.get_tape_of_ne width x fun i hi h => ?_
      rcases Nat.lt_succ_iff_lt_or_eq.1 hi with hi | rfl
      · exact ha i hi h.symm
      · exact hlast h.symm

/-- The bytes 1 and 255 before a 0, and one behind it that is not read. -/
theorem reverses_input_up_to_zero : ([1, 255, 0, 9] : List UInt8).length < 2 ^ 63 - 1 ∧
    ∃ m : Machine, Machine.ofSource "<,[<,]>[.>]" = .ok m ∧
      ∃ s d, m.Returns ⟨.unbounded, .zero⟩ Device.hooks {} (.ofBytes [1, 255, 0, 9]) ⟨.halted, 17, s, d⟩ ∧
        d.written.toList = [255, 1] ∧ d.reads = 3 ∧ s.tape.pointer = 0 ∧ s.tape.touched = 3 ∧
        (s.tape.get (-1)).toInt = 1 ∧ (s.tape.get (-2)).toInt = 255 ∧ s.tape.get (-3) = 0 := by
  have hlen : ([1, 255, 0, 9] : List UInt8).length < 2 ^ 63 - 1 := by decide
  obtain ⟨m, hm, h⟩ := reverses_input
  obtain ⟨s, d, hret, hout, hreads, hpointer, htouched, hget, hrest⟩ := h .unbounded [1, 255, 0, 9] hlen
  have hthird : s.tape.get (-3) = 0 := by
    refine hrest _ fun i (hi : i < 2) => ?_
    interval_cases i <;> decide
  exact ⟨hlen, m, hm, s, d, hret, hout, hreads, hpointer, htouched, hget 0 (by decide), hget 1 (by decide), hthird⟩

end Machine

end TapeMachine
