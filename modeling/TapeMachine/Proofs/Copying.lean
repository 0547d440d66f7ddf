import TapeMachine.Proofs.Cell
import TapeMachine.Proofs.Limit
import TapeMachine.Proofs.Rounds
import TapeMachine.Proofs.Serving
import Mathlib.Data.List.GetD

/-! The program `,[.,]`, which copies its input. A round of its loop writes the byte in the cell and reads the
next one into it, so the run is told by what the cell holds after so many reads: the byte read last, and behind
the end of the input what the policy leaves there. The loop is left at the first 0. Where the end of the input
leaves the cell alone there may be none, and then the last byte is written for ever. -/

namespace TapeMachine

namespace Copying

section reads

variable (width : CellWidth) (eof : EofPolicy) (x : List UInt8)

/-- The byte in the cell after so many reads. -/
def held : ℕ → UInt8
  | 0 => 0
  | i + 1 =>
    match x[i]?, eof with
    | some b, _ => b
    | none, .zero => 0
    | none, _ => held i

/-- The tape after so many reads. -/
def tape : ℕ → Tape
  | 0 => { width := width }
  | i + 1 =>
    match x[i]?, eof with
    | some b, _ => (tape i).write (Int64.ofNat b.toNat)
    | none, .zero => (tape i).write 0
    | none, _ => tape i

/-- What the first `n` rounds write. -/
def output (n : ℕ) : List UInt8 := (List.range n).map fun i => held eof x (i + 1)

/-- The device at the start of a round. -/
def device (i : ℕ) : Device := .serving x (i + 1) (output eof x i)

theorem read_tape (i : ℕ) : (tape width eof x i).read = Int64.ofNat (held eof x i).toNat := by
  induction i with
  | zero => rfl
  | succ i ih =>
    unfold tape held
    cases x[i]? with
    | some b => exact Tape.read_write _ _
    | none =>
      cases eof with
      | zero => exact Tape.read_write _ _
      | unchanged | error => exact ih

theorem read_tape_eq_zero (i : ℕ) : (tape width eof x i).read = 0 ↔ held eof x i = 0 := by
  rw [read_tape, ofNat_toNat_eq_zero]

theorem output_succ (n : ℕ) : output eof x (n + 1) = output eof x n ++ [held eof x (n + 1)] := by
  rw [output, List.range_succ, List.map_append]
  rfl

end reads

/-! What the cell holds. -/

section bytes

variable {eof : EofPolicy} {x : List UInt8} {i : ℕ}

theorem held_byte {b : UInt8} (h : x[i]? = some b) : held eof x (i + 1) = b := by
  simp only [held, h]

theorem held_zero (h : x[i]? = none) : held .zero x (i + 1) = 0 := by
  simp only [held, h]

theorem held_ne_zero (hi : i < (x.takeWhile (· ≠ 0)).length) : held eof x (i + 1) ≠ 0 := by
  rw [held_byte (getElem?_of_lt_takeWhile hi)]
  exact ne_zero_of_lt_takeWhile hi

/-- Where the end of the input leaves the cell alone, it keeps the last byte. -/
theorem held_unchanged (hx : x ≠ []) (i : ℕ) : held .unchanged x (i + 1) = x.getD i (x.getLast hx) := by
  induction i with
  | zero =>
    cases x with
    | nil => exact absurd rfl hx
    | cons b x => rfl
  | succ i ih =>
    by_cases hi : i + 1 < x.length
    · rw [held_byte (List.getElem?_eq_getElem hi), List.getD_eq_getElem _ _ hi]
    · have hend : x[i + 1]? = none := List.getElem?_eq_none (Nat.not_lt.1 hi)
      have hkept : held .unchanged x (i + 1 + 1) = held .unchanged x (i + 1) := by simp only [held, hend]
      rw [hkept, ih, List.getD_eq_default _ _ (Nat.not_lt.1 hi)]
      by_cases hlast : i < x.length
      · rw [List.getD_eq_getElem _ _ hlast, List.getLast_eq_getElem]
        congr 1
        omega
      · exact List.getD_eq_default _ _ (Nat.not_lt.1 hlast)

theorem output_takeWhile (eof : EofPolicy) (x : List UInt8) :
    output eof x (x.takeWhile (· ≠ 0)).length = x.takeWhile (· ≠ 0) := by
  refine List.ext_getElem (by simp [output]) fun i _ hi => ?_
  simp only [output, List.getElem_map, List.getElem_range]
  exact held_byte (getElem?_of_lt_takeWhile hi)

theorem output_self (eof : EofPolicy) (h : 0 ∉ x) : output eof x x.length = x := by
  have hy := output_takeWhile eof x
  rwa [takeWhile_eq_self h] at hy

/-- The read behind the bytes before the first 0 leaves a 0, be it a byte of the input or its end. -/
theorem held_takeWhile (h : 0 ∈ x ∨ eof = .zero) :
    held eof x ((x.takeWhile (· ≠ 0)).length + 1) = 0 ∧
      ∀ i ≤ (x.takeWhile (· ≠ 0)).length, i < x.length ∨ eof ≠ .error := by
  have hnext := getElem?_takeWhile_length x
  by_cases hx : 0 ∈ x
  · rw [if_pos hx] at hnext
    have hlt := (List.getElem?_eq_some_iff.1 hnext).1
    exact ⟨held_byte hnext, fun i hi => .inl (hi.trans_lt hlt)⟩
  · rw [if_neg hx] at hnext
    obtain rfl := h.resolve_left hx
    exact ⟨held_zero hnext, fun i _ => .inr (by decide)⟩

theorem held_unchanged_ne_zero (hx : x ≠ []) (h : 0 ∉ x) (i : ℕ) : held .unchanged x (i + 1) ≠ 0 := by
  have hmem : x.getD i (x.getLast hx) ∈ x := by
    by_cases hi : i < x.length
    · rw [List.getD_eq_getElem _ _ hi]
      exact List.getElem_mem hi
    · rw [List.getD_eq_default _ _ (Nat.not_lt.1 hi)]
      exact List.getLast_mem hx
  rw [held_unchanged hx]
  exact ne_of_mem_of_not_mem hmem h

end bytes

/-! What the program means. -/

def body : Block := .op .output (.op .input .done)

def block : Block := .op .input (.loop body .done)

section meaning

variable (width : CellWidth) (eof : EofPolicy) (x : List UInt8)

/-- A read that does not meet the end of the input, or may, leads from each tape to the next. -/
theorem act_input {i : ℕ} (h : i < x.length ∨ eof ≠ .error) (position : ℕ) (out : List UInt8) :
    Primitive.input.act Device.hooks eof position (tape width eof x i) (.serving x i out) =
      (.ok (tape width eof x (i + 1)), .serving x (i + 1) out) := by
  cases hx : x[i]? with
  | some b =>
    rw [Primitive.act_input_byte _ _ _ _ hx]
    simp only [tape, hx]
  | none =>
    rw [Primitive.act_input_end _ _ _ _ hx]
    cases eof with
    | zero | unchanged => simp only [tape, hx]
    | error =>
      have hi := h.resolve_right (· rfl)
      rw [List.getElem?_eq_getElem hi] at hx
      cases hx

theorem act_output (i position : ℕ) :
    Primitive.output.act Device.hooks eof position (tape width eof x (i + 1)) (device eof x i) =
      (.ok (tape width eof x (i + 1)), .serving x (i + 1) (output eof x (i + 1))) := by
  rw [device, Primitive.act_output, read_tape, outputByte_ofNat_toNat, output_succ]

/-- A round writes the byte in the cell and reads the next one. -/
theorem meaning_body {i : ℕ} (h : i + 1 < x.length ∨ eof ≠ .error) (position : ℕ) :
    body.meaning Device.hooks eof position (tape width eof x (i + 1)) (device eof x i) 2
      (.completed (tape width eof x (i + 1 + 1)) (device eof x (i + 1))) := by
  have hwrite := Meaning.Act.completed (act_output width eof x i position)
  have hread := Meaning.Act.completed (act_input width eof x h (position + 1) (output eof x (i + 1)))
  have hround := Meaning.Then.both hwrite (Meaning.Then.both hread Meaning.Skip.skip)
  exact hround

/-- The loop is left behind the first read that leaves 0. -/
theorem meaning_halts {n : ℕ} (hgo : ∀ i ≤ n, i < x.length ∨ eof ≠ .error)
    (hne : ∀ i < n, held eof x (i + 1) ≠ 0) (h0 : held eof x (n + 1) = 0) :
    block.meaning Device.hooks eof 0 { width := width } (.ofBytes x) (2 + 3 * n)
      (.completed (tape width eof x (n + 1)) (device eof x n)) := by
  have hfirst := Meaning.Act.completed (act_input width eof x (hgo 0 n.zero_le) 0 [])
  have hloop := Meaning.Loop.through (t := fun i => tape width eof x (i + 1)) (w := device eof x)
    (fun i hi => meaning_body width eof x (hgo (i + 1) hi) 2)
    (fun i hi => (read_tape_eq_zero width eof x (i + 1)).not.2 (hne i hi))
    ((read_tape_eq_zero width eof x (n + 1)).2 h0)
  have hall := Meaning.Then.both hfirst (Meaning.Then.both hloop Meaning.Skip.skip)
  rwa [show 1 + (1 + n * (2 + 1) + 0) = 2 + 3 * n by omega] at hall

/-- Where the end of the input is an error, a loop that has met no 0 fails with it, behind the last byte. -/
theorem meaning_fails {n : ℕ} (hlen : x.length = n + 1) (hne : ∀ i ≤ n, held .error x (i + 1) ≠ 0) :
    block.meaning Device.hooks .error 0 { width := width } (.ofBytes x) (3 * (n + 1))
      (.failed (.inputExhausted 3) (tape width .error x (n + 1))
        (.serving x (n + 2) (output .error x (n + 1)))) := by
  have hcell {i : ℕ} (hi : i ≤ n) : (tape width .error x (i + 1)).read ≠ 0 :=
    (read_tape_eq_zero width .error x (i + 1)).not.2 (hne i hi)
  have hend : x[n + 1]? = none := List.getElem?_eq_none hlen.le
  have hfirst := Meaning.Act.completed (act_input width .error x (i := 0) (.inl (by omega)) 0 [])
  have hwrite := Meaning.Act.completed (act_output width .error x n 2)
  have hread := Meaning.Act.failed
    (Primitive.act_input_end .error 3 (tape width .error x (n + 1)) (output .error x (n + 1)) hend)
  have hlast : body.meaning Device.hooks .error 2 (tape width .error x (n + 1)) (device .error x n) (1 + 0)
      (.failed (.inputExhausted 3) (tape width .error x (n + 1))
        (.serving x (n + 2) (output .error x (n + 1)))) := .both hwrite (.failed hread)
  have hrounds := Meaning.Rounds.behind (t := fun i => tape width .error x (i + 1)) (w := device .error x)
    (fun i hi => meaning_body width .error x (.inl (by omega)) 2) (fun i hi => hcell hi)
    (Meaning.Rounds.failed hlast)
  have hloop := Meaning.Loop.entered (hcell n.zero_le) hrounds
  rw [show 3 * (n + 1) = 1 + (1 + (n * (2 + 1) + (1 + 0))) by omega]
  exact .both hfirst (.failed hloop)

end meaning

/-! What a machine does that holds the program. -/

section machine

variable {m : Machine} (hm : m.program = .ofList block.text) (width : CellWidth) (eof : EofPolicy) (x : List UInt8)

include hm

theorem loopAt : (m.engine Device.hooks eof).LoopAt 1 4 := by
  have htext : m.program.toList = [.input] ++ .loopStart :: (body.text ++ .loopEnd :: []) := by
    rw [hm]
    rfl
  exact Engine.loopAt_of_toList (e := m.engine Device.hooks eof) m.built body.balanced_text htext

theorem realises_body : (m.engine Device.hooks eof).Realises 2 4 (body.meaning Device.hooks eof 2) := by
  have htext : m.program.toList = [.input, .loopStart] ++ (body.text ++ [.loopEnd]) := by
    rw [hm]
    rfl
  exact Engine.realises_block (e := m.engine Device.hooks eof) m.built body _ _ htext

theorem realises_primitive {p : Primitive} {position : ℕ} (hp : block.text[position]? = some p.instruction) :
    (m.engine Device.hooks eof).Realises position (position + 1) (.Act (p.act Device.hooks eof position)) := by
  have hget : m.program.get? position = some p.instruction := by
    rw [← Program.getElem?_toList, hm]
    exact hp
  exact Engine.realises_act (e := m.engine Device.hooks eof) hget

theorem stand_inside {position : ℕ} (hp : position < 5) (k : ℕ) (t : Tape) (w : Device) :
    (m.engine Device.hooks eof).stand k ⟨t, ⟨position⟩⟩ w = ⟨.unfinished, k, ⟨t, ⟨position⟩⟩, w⟩ := by
  have hsize : (m.engine Device.hooks eof).program.size = 5 := by
    rw [Machine.engine, hm]
    rfl
  exact Engine.stand_running (hsize ▸ hp) k w

section endless

variable (heof : eof ≠ .error) (hne : ∀ i, held eof x (i + 1) ≠ 0)

include heof

theorem next_start : (m.engine Device.hooks eof).next (m.start ⟨width, eof⟩ Device.hooks (.ofBytes x)) =
    (m.engine Device.hooks eof).stand 1 ⟨tape width eof x 1, ⟨1⟩⟩ (device eof x 0) :=
  (realises_primitive hm eof rfl).completed (.completed (act_input width eof x (i := 0) (.inr heof) 0 [])) 0

include hne

/-- Where no read leaves 0, there is always a next round. -/
theorem iterate_round (i : ℕ) :
    (m.engine Device.hooks eof).next^[i * 3 + 2] (m.start ⟨width, eof⟩ Device.hooks (.ofBytes x)) =
      (m.engine Device.hooks eof).stand (i * 3 + 2) ⟨tape width eof x (i + 1), ⟨2⟩⟩ (device eof x i) := by
  have hcell (i : ℕ) : (tape width eof x (i + 1)).read ≠ 0 :=
    (read_tape_eq_zero width eof x (i + 1)).not.2 (hne i)
  have hrounds := (loopAt hm eof).rounds (t := fun i => tape width eof x (i + 1)) (w := device eof x) (n := i)
    (realises_body hm eof) (fun i _ => meaning_body width eof x (.inr heof) 2) (fun i _ => hcell (i + 1)) 2
  rw [Function.iterate_add_apply, Function.iterate_succ_apply', Function.iterate_one,
    next_start hm width eof x heof, (loopAt hm eof).opening_entered (hcell 0), Nat.add_comm (i * 3)]
  exact hrounds

/-- There the run never ends, and every third step writes a byte. -/
theorem run_goes_on (n : ℕ) : ∃ s i, m.run ⟨width, eof⟩ Device.hooks {} n (.ofBytes x) =
    ⟨.unfinished, n, s, .serving x i (output eof x (n / 3))⟩ := by
  rw [Machine.run_free]
  obtain rfl | rfl | ⟨i, hn⟩ : n = 0 ∨ n = 1 ∨ ∃ i, n = i * 3 + 2 ∨ n = 1 + (i * 3 + 2) ∨ n = 2 + (i * 3 + 2) := by
    have hn : n = 0 ∨ n = 1 ∨ n - 2 + 2 = n := by omega
    refine hn.imp_right fun hn => hn.imp_right fun hn => ⟨(n - 2) / 3, by omega⟩
  · exact ⟨_, 0, stand_inside hm eof (by decide) 0 _ _⟩
  · exact ⟨_, 1, (next_start hm width eof x heof).trans (stand_inside hm eof (by decide) 1 _ _)⟩
  · have hround := iterate_round hm width eof x heof hne i
    obtain rfl | rfl | rfl := hn
    · rw [hround, stand_inside hm eof (by decide), show (i * 3 + 2) / 3 = i by omega]
      exact ⟨_, _, rfl⟩
    · have hwrite := (realises_primitive hm eof (p := .output) rfl).completed
        (.completed (act_output width eof x i 2)) (i * 3 + 2)
      rw [Function.iterate_add_apply, hround, hwrite, stand_inside hm eof (by decide),
        show (1 + (i * 3 + 2)) / 3 = i + 1 by omega, Nat.add_comm 1]
      exact ⟨_, _, rfl⟩
    · have hread := (realises_body hm eof).completed (meaning_body width eof x (i := i) (.inr heof) 2) (i * 3 + 2)
      rw [Function.iterate_add_apply, hround, hread, stand_inside hm eof (by decide),
        show (2 + (i * 3 + 2)) / 3 = i + 1 by omega, Nat.add_comm 2]
      exact ⟨_, _, rfl⟩

end endless

end machine

end Copying

namespace Machine

/-- The machine of `,[.,]` copies its input, as far as the policy for the end of the input lets it. Let `y` be
the bytes before the first 0. If there is a 0, or the end of the input stores one, the run halts after two
steps and three for each byte of `y`, which is the output, and has read one byte more. If there is none and the
end of the input is an error, the run fails with that where it first reads, or in the loop, behind the copy of
all bytes. And if the end of the input leaves the cell alone, the run halts after two steps when there is no
byte at all. Otherwise it never ends, under every limit it exceeds the limit, and its output has a byte for
every third step: those of the input, and from then on the last one. -/
theorem copies_input : ∃ m : Machine, Machine.ofSource ",[.,]" = .ok m ∧ ∀ (width : CellWidth) (x : List UInt8),
    let y := x.takeWhile (· ≠ 0)
    (∀ eof, 0 ∈ x ∨ eof = .zero → ∃ s d,
      m.Returns ⟨width, eof⟩ Device.hooks {} (.ofBytes x) ⟨.halted, 2 + 3 * y.length, s, d⟩ ∧
      d.written.toList = y ∧ d.reads = y.length + 1) ∧
    (0 ∉ x →
      (x = [] → ∃ s d, m.Returns ⟨width, .error⟩ Device.hooks {} (.ofBytes x)
        ⟨.stopped (.inputExhausted 0), 0, s, d⟩ ∧ d.written = #[]) ∧
      (x ≠ [] → ∃ s d, m.Returns ⟨width, .error⟩ Device.hooks {} (.ofBytes x)
        ⟨.stopped (.inputExhausted 3), 3 * x.length, s, d⟩ ∧ d.written.toList = x) ∧
      (x = [] → ∃ s d, m.Returns ⟨width, .unchanged⟩ Device.hooks {} (.ofBytes x) ⟨.halted, 2, s, d⟩ ∧
        d.written = #[]) ∧
      ∀ hx : x ≠ [],
        (∀ r, ¬ m.Returns ⟨width, .unchanged⟩ Device.hooks {} (.ofBytes x) r) ∧
        ∀ n, ∃ s d, m.run ⟨width, .unchanged⟩ Device.hooks {} n (.ofBytes x) = ⟨.unfinished, n, s, d⟩ ∧
          m.Returns ⟨width, .unchanged⟩ Device.hooks { limit := some n } (.ofBytes x)
            ⟨.stopped (.stepLimitExceeded n), n, s, d⟩ ∧
          d.written.toList = (List.range (n / 3)).map fun i => x.getD i (x.getLast hx)) := by
  let m : Machine := ⟨.ofSource ",[.,]", ⟨#[none, some 4, none, none, some 1]⟩, rfl⟩
  have htext : Copying.block.text = m.program.toList := rfl
  have hm : m.program = .ofList Copying.block.text := rfl
  refine ⟨m, rfl, fun width x => ⟨fun eof h => ?_, fun h0 => ⟨?_, fun hx => ?_, ?_, fun hx => ?_⟩⟩⟩
  · obtain ⟨hzero, hgo⟩ := Copying.held_takeWhile h
    have hmeaning := Copying.meaning_halts width eof x hgo (fun i hi => Copying.held_ne_zero hi) hzero
    exact ⟨_, _, returns_completed ⟨width, eof⟩ htext hmeaning, Copying.output_takeWhile eof x, rfl⟩
  · rintro rfl
    have hread := Meaning.Act.failed (Primitive.act_input_end .error 0 { width := width } [] (x := []) (i := 0) rfl)
    obtain ⟨q, hret⟩ := returns_failed ⟨width, .error⟩ htext (.failed hread)
    exact ⟨_, _, hret, rfl⟩
  · obtain ⟨n, hn⟩ := Nat.exists_eq_succ_of_ne_zero (List.length_pos_iff.2 hx).ne'
    have hne (i : ℕ) (hi : i ≤ n) : Copying.held .error x (i + 1) ≠ 0 :=
      Copying.held_ne_zero (by rw [takeWhile_eq_self h0]; omega)
    have hcopy := Copying.output_self .error h0
    obtain ⟨q, hret⟩ := returns_failed ⟨width, .error⟩ htext (Copying.meaning_fails width x hn hne)
    rw [hn] at hcopy ⊢
    exact ⟨_, _, hret, hcopy⟩
  · rintro rfl
    have hmeaning := Copying.meaning_halts width .unchanged [] (n := 0) (fun _ _ => .inr (by decide))
      (fun _ hi => absurd hi (Nat.not_lt_zero _)) rfl
    exact ⟨_, _, returns_completed ⟨width, .unchanged⟩ htext hmeaning, rfl⟩
  · have hgoes := Copying.run_goes_on hm width .unchanged x (by decide) (Copying.held_unchanged_ne_zero hx h0)
    have hnever : m.NeverSet ⟨width, .unchanged⟩ Device.hooks (.ofBytes x) fun _ => false := fun _ => rfl
    refine ⟨?_, fun n => ?_⟩
    · rintro r ⟨hover, n, rfl⟩
      obtain ⟨s, i, hrun⟩ := hgoes n
      rw [hrun] at hover
      exact hover rfl
    · obtain ⟨s, i, hrun⟩ := hgoes n
      have hret := hnever.returns_limited n
      rw [hrun, Run.cut_unfinished rfl] at hret
      refine ⟨s, _, hrun, hret, ?_⟩
      exact List.map_congr_left fun i _ => Copying.held_unchanged hx i

/-- The byte 5, with a 0 behind it and with a 9 behind it, and no byte at all. -/
theorem copies_input_every_way : ∃ m : Machine, Machine.ofSource ",[.,]" = .ok m ∧
    ((0 : UInt8) ∈ [5, 0, 9] ∧ ∃ s d, m.Returns ⟨.byte, .error⟩ Device.hooks {} (.ofBytes [5, 0, 9])
      ⟨.halted, 5, s, d⟩ ∧ d.written.toList = [5] ∧ d.reads = 2) ∧
    ((0 : UInt8) ∉ [5, 9] ∧ ([5, 9] : List UInt8) ≠ [] ∧
      (∃ s d, m.Returns ⟨.byte, .error⟩ Device.hooks {} (.ofBytes [5, 9])
        ⟨.stopped (.inputExhausted 3), 6, s, d⟩ ∧ d.written.toList = [5, 9]) ∧
      ∃ s d, m.Returns ⟨.byte, .unchanged⟩ Device.hooks { limit := some 13 } (.ofBytes [5, 9])
        ⟨.stopped (.stepLimitExceeded 13), 13, s, d⟩ ∧ d.written.toList = [5, 9, 9, 9]) ∧
    (0 : UInt8) ∉ [] ∧ (∃ s d, m.Returns ⟨.byte, .error⟩ Device.hooks {} (.ofBytes [])
        ⟨.stopped (.inputExhausted 0), 0, s, d⟩ ∧ d.written = #[]) ∧
      ∃ s d, m.Returns ⟨.byte, .unchanged⟩ Device.hooks {} (.ofBytes []) ⟨.halted, 2, s, d⟩ ∧ d.written = #[] := by
  obtain ⟨m, hm, h⟩ := copies_input
  have hzero : (0 : UInt8) ∈ [5, 0, 9] := by decide
  have hnone : (0 : UInt8) ∉ [5, 9] := by decide
  have hsome : ([5, 9] : List UInt8) ≠ [] := by decide
  have hempty : (0 : UInt8) ∉ [] := List.not_mem_nil
  obtain ⟨-, hfails, -, hgoes⟩ := (h .byte [5, 9]).2 hnone
  obtain ⟨hfirst, -, hleft, -⟩ := (h .byte []).2 hempty
  obtain ⟨s, d, -, hret, hout⟩ := (hgoes hsome).2 13
  exact ⟨m, hm, ⟨hzero, (h .byte [5, 0, 9]).1 .error (.inl hzero)⟩, ⟨hnone, hsome, hfails hsome, s, d, hret, hout⟩,
    hempty, hfirst rfl, hleft rfl⟩

end Machine

end TapeMachine
