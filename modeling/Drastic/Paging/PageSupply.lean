import Drastic.Paging.LargePages

namespace Drastic

variable {σ : Type} {alloc : PhysicalAlloc σ} {valid : σ → Prop} {available : σ → Frame → Prop}

abbrev PhysicalFree (σ : Type) := Uintptr → σ → Exec σ

/-- An allocator that was given the pages `supplied`: what it hands out was available, and
it takes back every page that is not. -/
structure PageSupply (alloc : PhysicalAlloc σ) (free : PhysicalFree σ) (valid : σ → Prop)
    (available : σ → Frame → Prop) (supplied : Frame → Prop) : Prop where
  allocs : ∀ kind pages, valid pages → ∃ result pages', alloc kind pages = .ok (result, pages') ∧
    valid pages' ∧
    (∀ address, result = some address →
      ∃ frame : Frame, address = frame.address ∧ available pages frame) ∧
    ∀ frame : Frame, available pages' frame ↔
      available pages frame ∧ result ≠ some frame.address
  frees : ∀ pages frame, valid pages → supplied frame → ¬ available pages frame →
    ∃ pages', free frame.address pages = .ok pages' ∧ valid pages' ∧
      ∀ other, available pages' other ↔ available pages other ∨ other = frame
  within : ∀ pages frame, valid pages → available pages frame → supplied frame

def ValidHeld (valid : σ → Prop) (available : σ → Frame → Prop) (held : List Frame)
    (pages : σ) : Prop :=
  valid pages ∧ ∀ frame ∈ held, ¬ available pages frame

def Elsewhere (available : σ → Frame → Prop) (held : List Frame) (pages : σ) (frame : Frame) :
    Prop :=
  available pages frame ∨ frame ∈ held

theorem PageSupply.fresh {free : PhysicalFree σ} {supplied : Frame → Prop}
    (supply : PageSupply alloc free valid available supplied) (held : List Frame) :
    FreshAllocator alloc (ValidHeld valid available held) (Elsewhere available held) := by
  have call (pages : σ) (isValid : valid pages) {answer : Option Uintptr × σ}
      (returned : alloc .normal pages = .ok answer) : valid answer.2 ∧
      (∀ address, answer.1 = some address →
        ∃ frame : Frame, address = frame.address ∧ available pages frame) ∧
      ∀ frame : Frame, available answer.2 frame ↔
        available pages frame ∧ answer.1 ≠ some frame.address := by
    obtain ⟨result, pages', same, isValid', took, rest⟩ := supply.allocs .normal pages isValid
    rw [same, Except.ok.injEq] at returned
    subst returned
    exact ⟨isValid', took, rest⟩
  refine ⟨?_, ?_, ?_, ?_⟩
  · intro pages isValid
    obtain ⟨result, pages', same, _⟩ := supply.allocs .normal pages isValid.1
    exact ⟨_, same⟩
  · intro pages result pages' isValid returned
    obtain ⟨isValid', _, rest⟩ := call pages isValid.1 returned
    exact ⟨isValid', fun frame member free => isValid.2 frame member ((rest frame).mp free).1⟩
  · intro pages address pages' isValid returned
    obtain ⟨_, took, _⟩ := call pages isValid.1 returned
    obtain ⟨frame, same, free⟩ := took address rfl
    exact ⟨frame, same, Or.inl free⟩
  · intro pages result pages' isValid returned frame
    obtain ⟨_, took, rest⟩ := call pages isValid.1 returned
    rw [Elsewhere, Elsewhere, rest frame]
    constructor
    · rintro (⟨free, other⟩ | member)
      · exact ⟨Or.inl free, other⟩
      · refine ⟨Or.inr member, fun isResult => ?_⟩
        obtain ⟨taken, same, free⟩ := took _ isResult
        rw [address_inj same] at member
        exact isValid.2 taken member free
    · rintro ⟨free | member, other⟩
      · exact Or.inl ⟨free, other⟩
      · exact Or.inr member

end Drastic
