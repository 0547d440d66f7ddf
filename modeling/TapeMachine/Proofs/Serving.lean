import TapeMachine.Proofs.Block
import TapeMachine.Proofs.Foresight
import Mathlib.Data.List.TakeWhile

/-! Devices that serve bytes. One that was given bytes to serve and has refused nothing is told by how many
times it has been asked and by what it has taken, so what an input or an output instruction does on it can be
written down. Also the bytes before the first 0, where a loop stops that reads into the cell it tests. -/

namespace TapeMachine

/-! Cells that hold a byte. -/

theorem toInt_ofNat_toNat (b : UInt8) : (Int64.ofNat b.toNat).toInt = b.toNat := by
  have hb := b.toNat_lt
  exact Int64.toInt_ofNat_of_lt (by omega)

theorem ofNat_toNat_eq_zero {b : UInt8} : Int64.ofNat b.toNat = 0 ↔ b = 0 := by
  rw [← Int64.toInt_inj, toInt_ofNat_toNat, ← UInt8.toNat_inj]
  exact Int.natCast_inj

theorem outputByte_ofNat_toNat (b : UInt8) : Tape.outputByte (Int64.ofNat b.toNat) = b := by
  have hb := b.toNat_lt
  rw [← UInt8.toNat_inj, ← Int.natCast_inj, toNat_outputByte, toInt_ofNat_toNat]
  omega

/-- The device that was given `x`, after `i` reads, with these bytes taken. -/
def Device.serving (x : List UInt8) (i : ℕ) (out : List UInt8) : Device :=
  { replies := (x.drop i).map .byte, reads := i, written := out.toArray }

namespace Device

theorem read_serving (x : List UInt8) (i : ℕ) (out : List UInt8) :
    (serving x i out).read = (Reading.ofInput x i, serving x (i + 1) out) := by
  rw [read_eq]
  refine Prod.ext ?_ ?_
  · simp only [upcoming, serving, Reading.ofInput, List.getElem?_map, List.getElem?_drop, Nat.add_zero]
    cases x[i]? <;> rfl
  · simp only [serving, ← List.map_tail, List.tail_drop]

theorem write_serving (x : List UInt8) (i : ℕ) (out : List UInt8) (b : UInt8) :
    (serving x i out).write b = (.accepted, serving x i (out ++ [b])) := by
  rw [write_nil rfl]
  simp only [serving, List.push_toArray]

end Device

namespace Primitive

variable (eof : EofPolicy) (position : ℕ) (t : Tape) {x : List UInt8} {i : ℕ} (out : List UInt8)

theorem act_output : output.act Device.hooks eof position t (.serving x i out) =
    (.ok t, .serving x i (out ++ [Tape.outputByte t.read])) := by
  simp only [act, Device.hooks, Device.write_serving]

theorem act_input_byte {b : UInt8} (h : x[i]? = some b) :
    input.act Device.hooks eof position t (.serving x i out) =
      (.ok (t.write (Int64.ofNat b.toNat)), .serving x (i + 1) out) := by
  simp only [act, Device.hooks, Device.read_serving, Reading.ofInput, h, Option.elim]

/-- Behind the last byte, the policy decides what the input instruction stores, and whether it may. -/
theorem act_input_end (h : x[i]? = none) :
    input.act Device.hooks eof position t (.serving x i out) =
      (match eof with
        | .zero => .ok (t.write 0)
        | .unchanged => .ok t
        | .error => .error (.inputExhausted position), .serving x (i + 1) out) := by
  simp only [act, Device.hooks, Device.read_serving, Reading.ofInput, h, Option.elim]
  cases eof <;> rfl

/-- Where the end of the input stores 0, it reads as if the bytes went on with 0 for ever. -/
theorem act_input_zero (i : ℕ) : input.act Device.hooks .zero position t (.serving x i out) =
    (.ok (t.write (Int64.ofNat (x.getD i 0).toNat)), .serving x (i + 1) out) := by
  rw [List.getD_eq_getElem?_getD]
  cases hx : x[i]? with
  | some b => exact act_input_byte _ _ _ _ hx
  | none => exact act_input_end _ _ _ _ hx

end Primitive

/-! The bytes before the first 0. -/

section prefixes

variable {x : List UInt8} {i : ℕ}

theorem prefix_getD {y : List UInt8} (hy : y <+: x) (hi : i < y.length) (b : UInt8) : x.getD i b = y[i] := by
  rw [hy.getElem hi, List.getD_eq_getElem?_getD, List.getElem?_eq_getElem]
  rfl

theorem getElem?_of_lt_takeWhile (hi : i < (x.takeWhile (· ≠ 0)).length) :
    x[i]? = some (x.takeWhile (· ≠ 0))[i] := by
  have hx : x.takeWhile (· ≠ 0) <+: x := List.takeWhile_prefix _
  rw [hx.getElem hi, List.getElem?_eq_getElem]

theorem ne_zero_of_lt_takeWhile (hi : i < (x.takeWhile (· ≠ 0)).length) :
    (x.takeWhile (· ≠ 0))[i] ≠ 0 := by
  simpa using List.mem_takeWhile_imp (List.getElem_mem hi)

/-- Behind them comes a 0, or nothing. -/
theorem getElem?_takeWhile_length (x : List UInt8) :
    x[(x.takeWhile (· ≠ 0)).length]? = if 0 ∈ x then some 0 else none := by
  induction x with
  | nil => rfl
  | cons b x ih =>
    by_cases hb : b = 0
    · simp [hb]
    · simpa [hb, Ne.symm hb] using ih

theorem getD_takeWhile_length (x : List UInt8) : x.getD (x.takeWhile (· ≠ 0)).length 0 = 0 := by
  rw [List.getD_eq_getElem?_getD, getElem?_takeWhile_length]
  split_ifs <;> rfl

theorem takeWhile_eq_self (h : 0 ∉ x) : x.takeWhile (· ≠ 0) = x := by
  rw [List.takeWhile_eq_self_iff]
  intro b hb
  simpa using ne_of_mem_of_not_mem hb h

end prefixes

end TapeMachine
