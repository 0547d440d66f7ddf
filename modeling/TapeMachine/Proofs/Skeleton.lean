import TapeMachine.Device
import TapeMachine.Proofs.Matching
import TapeMachine.Proofs.Transcript

/-! The skeleton of a program: where its brackets are, among how many instructions. This is all that building
a table looks at, so programs with one skeleton have one table, or report the same bracket. And it can be read
back off a table, since a `[` stands where the target is further on and a `]` where it is further back. So a
program may be stepped with the table of any other one that has its skeleton. -/

namespace TapeMachine

namespace Bracket

/-- The instruction that is this bracket. -/
def instruction : Bracket → Instruction
  | opening => .loopStart
  | closing => .loopEnd

/-- The position `j` lies on the side of `i` on which a bracket at `i` has its partner. -/
def Faces (i j : ℕ) : Bracket → Prop
  | opening => i < j
  | closing => j < i

theorem instruction_injective : Function.Injective instruction := by
  intro b b' h
  cases b <;> cases b' <;> first | rfl | cases h

theorem Faces.unique {i j : ℕ} {b b' : Bracket} (h : b.Faces i j) (h' : b'.Faces i j) : b = b' := by
  cases b <;> cases b' <;> first | rfl | exact absurd h (Nat.lt_asymm h')

end Bracket

theorem Partners.faces {l : List Instruction} {i j : ℕ} (h : Partners l i j) :
    ∃ b : Bracket, l[i]? = some b.instruction ∧ b.Faces i j := by
  rcases h with h | h
  · exact ⟨.opening, h.2.1, h.1⟩
  · exact ⟨.closing, h.2.2.1, h.1⟩

/-- The bracket that an instruction is, if it is one. -/
def Instruction.bracket? : Instruction → Option Bracket
  | loopStart => some .opening
  | loopEnd => some .closing
  | _ => none

theorem Instruction.bracket?_eq_some {i : Instruction} {b : Bracket} : i.bracket? = some b ↔ i = b.instruction := by
  cases i <;> cases b <;> decide

namespace Program

def skeleton (p : Program) : List (Option Bracket) := p.toList.map Instruction.bracket?

/-- The bracket at a position, if there is one. -/
def bracketAt? (p : Program) (position : ℕ) : Option Bracket := (p.get? position).bind Instruction.bracket?

theorem length_skeleton (p : Program) : p.skeleton.length = p.size := List.length_map _

theorem join_getElem?_skeleton (p : Program) (i : ℕ) : p.skeleton[i]?.join = p.bracketAt? i := by
  rw [skeleton, List.getElem?_map, getElem?_toList, bracketAt?]
  cases p.get? i <;> rfl

theorem bracketAt?_eq_some {p : Program} {i : ℕ} {b : Bracket} :
    p.bracketAt? i = some b ↔ p.get? i = some b.instruction := by
  simp only [bracketAt?, Option.bind_eq_some_iff, Instruction.bracket?_eq_some, exists_eq_right]

/-- Programs have one skeleton if they are of one length and have the same brackets at the same places. -/
theorem skeleton_eq_iff {p q : Program} :
    p.skeleton = q.skeleton ↔ p.size = q.size ∧ ∀ i, p.bracketAt? i = q.bracketAt? i := by
  simp only [← length_skeleton, ← join_getElem?_skeleton]
  constructor
  · intro h
    rw [h]
    exact ⟨rfl, fun _ => rfl⟩
  · rintro ⟨hlen, hat⟩
    refine List.ext_getElem hlen fun i h h' => ?_
    have := hat i
    rwa [List.getElem?_eq_getElem h, List.getElem?_eq_getElem h'] at this

end Program

namespace JumpTable

/-- The pass looks at an instruction for its bracket only. -/
theorem Matching.scan_congr (m : Matching) (position : ℕ) {i j : Instruction} (h : i.bracket? = j.bracket?) :
    m.scan position i = m.scan position j := by
  cases i <;> cases j <;> first | rfl | cases h

theorem Matching.scanAll_congr {l l' : List Instruction}
    (h : l.map Instruction.bracket? = l'.map Instruction.bracket?) (m : Matching) (position : ℕ) :
    m.scanAll position l = m.scanAll position l' := by
  induction l generalizing l' m position with
  | nil =>
    rw [List.map_nil, eq_comm, List.map_eq_nil_iff] at h
    rw [h]
  | cons i l ih =>
    cases l' with
    | nil => cases h
    | cons j l' =>
      obtain ⟨hij, hrest⟩ := List.cons.inj h
      rw [scanAll, scanAll, m.scan_congr position hij]
      cases m.scan position j with
      | error fault => rfl
      | ok next => exact ih hrest next (position + 1)

/-- Programs with one skeleton have one table, or report the same bracket. -/
theorem build_congr {p q : Program} (h : p.skeleton = q.skeleton) : build p = build q := by
  have hsize : p.size = q.size := by rw [← p.length_skeleton, h, q.length_skeleton]
  rw [build, build, hsize, Matching.scanAll_congr h]

/-- A program that has a table holds a bracket just where the table has a target on its side. -/
theorem get?_bracket_iff {p : Program} {t : JumpTable} (h : build p = .ok t) (b : Bracket) (i : ℕ) :
    p.get? i = some b.instruction ↔ ∃ j, t.target? i = some j ∧ b.Faces i j := by
  obtain ⟨hb, -, htarget⟩ := of_build h
  simp only [htarget, ← Program.getElem?_toList]
  constructor
  · intro hi
    obtain ⟨j, hj⟩ := hb.exists_partner i _ hi (by cases b <;> rfl)
    obtain ⟨b', hi', hf⟩ := hj.faces
    obtain rfl : b = b' := Bracket.instruction_injective (Option.some.inj (hi.symm.trans hi'))
    exact ⟨j, hj, hf⟩
  · rintro ⟨j, hj, hf⟩
    obtain ⟨b', hi', hf'⟩ := hj.faces
    rwa [hf.unique hf']

/-- The skeleton is read back off the table. -/
theorem skeleton_of_build {p q : Program} {t : JumpTable} (hp : build p = .ok t) (hq : build q = .ok t) :
    p.skeleton = q.skeleton := by
  rw [Program.skeleton_eq_iff]
  constructor
  · rw [← (of_build hp).2.1, (of_build hq).2.1]
  · intro i
    ext b
    rw [Program.bracketAt?_eq_some, Program.bracketAt?_eq_some, get?_bracket_iff hp, get?_bracket_iff hq]

/-- A table determines the skeleton of its program and is determined by it. Two programs that have tables have
the same one just when they are of one length and have the same brackets at the same places. A position of the
program holds a `[` just when its target is greater than it, and a `]` just when it is smaller. So wherever the
brackets coincide, stepping the one program with the table of the other, from any state and with any hooks, is
stepping it with its own, calls of the hooks included. -/
theorem table_eq_iff_skeleton {p q : Program} {t u : JumpTable} (hp : build p = .ok t) (hq : build q = .ok u) :
    (t = u ↔ p.size = q.size ∧ ∀ i, p.bracketAt? i = q.bracketAt? i) ∧
    (∀ i, (p.get? i = some .loopStart ↔ ∃ j, t.target? i = some j ∧ i < j) ∧
      (p.get? i = some .loopEnd ↔ ∃ j, t.target? i = some j ∧ j < i)) ∧
    (p.size = q.size → (∀ i, p.bracketAt? i = q.bracketAt? i) →
      ∀ (World : Type) (hooks : Hooks World) (eof : EofPolicy) (s : State) (w : World),
        let e : Engine World := ⟨p, u, hooks, eof⟩
        let own : Engine World := ⟨p, t, hooks, eof⟩
        e.step s w = own.step s w ∧ ∀ n, e.drive n s w = own.drive n s w ∧
          ∀ calls : List Call, e.recorded.drive n s (w, calls) = own.recorded.drive n s (w, calls)) := by
  have hiff : t = u ↔ p.skeleton = q.skeleton := by
    constructor
    · rintro rfl
      exact skeleton_of_build hp hq
    · intro h
      rw [build_congr h, hq] at hp
      exact (Except.ok.inj hp).symm
  rw [Program.skeleton_eq_iff] at hiff
  refine ⟨hiff, fun i => ⟨get?_bracket_iff hp .opening i, get?_bracket_iff hp .closing i⟩, fun hsize hat => ?_⟩
  obtain rfl : t = u := hiff.2 ⟨hsize, hat⟩
  exact fun _ _ _ _ _ => ⟨rfl, fun _ => ⟨rfl, fun _ => rfl⟩⟩

/-- The programs `+[-].` and `,[>]<` have one skeleton, so they have one table. The program `+[-]` is shorter,
so it has another one, though no bracket is missing. -/
theorem table_eq_iff_skeleton_shared : ∃ t u v,
    build (.ofSource "+[-].") = .ok t ∧ build (.ofSource ",[>]<") = .ok u ∧ build (.ofSource "+[-]") = .ok v ∧
    t = u ∧ t ≠ v ∧ (∃ j, t.target? 3 = some j ∧ j < 3) ∧
    (Engine.mk (.ofSource "+[-].") u Device.hooks .zero).drive 5 {} {} =
      (Engine.mk (.ofSource "+[-].") t Device.hooks .zero).drive 5 {} {} := by
  have hp : build (.ofSource "+[-].") = .ok ⟨#[none, some 3, none, some 1, none]⟩ := by decide
  have hq : build (.ofSource ",[>]<") = .ok ⟨#[none, some 3, none, some 1, none]⟩ := by decide
  have hr : build (.ofSource "+[-]") = .ok ⟨#[none, some 3, none, some 1]⟩ := by decide
  have hskeleton : (Program.ofSource "+[-].").skeleton = (Program.ofSource ",[>]<").skeleton := by decide
  obtain ⟨hsize, hat⟩ := Program.skeleton_eq_iff.1 hskeleton
  obtain ⟨hsame, hsides, hstep⟩ := table_eq_iff_skeleton hp hq
  have hother : ¬ (Program.ofSource "+[-].").size = (Program.ofSource "+[-]").size := by decide
  exact ⟨_, _, _, hp, hq, hr, hsame.2 ⟨hsize, hat⟩, fun h => hother ((table_eq_iff_skeleton hp hr).1.1 h).1,
    (hsides 3).2.1 (by decide), ((hstep hsize hat Device Device.hooks .zero {} {}).2 5).1⟩

end JumpTable

end TapeMachine
