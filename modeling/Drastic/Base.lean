import Mathlib.Data.BitVec
import Mathlib.Data.Nat.Digits.Lemmas
import Mathlib.Tactic.Common

namespace Drastic

abbrev U8 := BitVec 8
abbrev U16 := BitVec 16
abbrev U32 := BitVec 32
abbrev U64 := BitVec 64
abbrev I64 := BitVec 64
abbrev Uintptr := BitVec 64

/-- One instance decides membership in the lists of words of every module. -/
instance : LawfulBEq U64 := inferInstance

/-- Memory by the pointers of its bytes. -/
abbrev ByteMemory := Uintptr → U8

/-- `asm_port_inb` and `asm_port_outb`, on the devices behind the ports. -/
structure Ports (σ : Type) where
  inb : U16 → σ → U8 × σ
  outb : U16 → U8 → σ → σ

/-- How a run of the code stops before returning. `recursionDepth` is not in the
code: it marks a recursion or loop that outlived the bound its model was given. -/
inductive Halt where
  | assertion (condition : String)
  | kpanic (message : String)
  | nullDereference
  | recursionDepth
  deriving DecidableEq, Repr

abbrev Exec := Except Halt

def kassert (condition : Bool) (text : String) : Exec Unit :=
  if condition then .ok () else .error (.assertion text)

/-- `a || b` and `a && b`: the second operand is only evaluated when it is needed. -/
def execOr (a b : Exec Bool) : Exec Bool := do
  if ← a then return true
  b

def execAnd (a b : Exec Bool) : Exec Bool := do
  if ← a then b else return false

@[simp] theorem kassert_true (text : String) : kassert true text = .ok () := rfl

@[simp] theorem exec_bind_ok {α β : Type} (a : α) (f : α → Exec β) :
    (Except.ok a >>= f) = f a := rfl

@[simp] theorem exec_pure {α : Type} (a : α) : (pure a : Exec α) = .ok a := rfl

@[simp] theorem exec_bind_error {α β : Type} (halt : Halt) (f : α → Exec β) :
    ((Except.error halt : Exec α) >>= f) = .error halt := rfl

@[simp] theorem execOr_ok (a b : Bool) : execOr (.ok a) (.ok b) = .ok (a || b) := by
  cases a <;> rfl

@[simp] theorem execAnd_ok (a b : Bool) : execAnd (.ok a) (.ok b) = .ok (a && b) := by
  cases a <;> rfl

theorem kassert_eq_ok (condition : Bool) (text : String) :
    kassert condition text = .ok () ↔ condition = true := by
  cases condition <;> simp [kassert]

theorem exec_bind_eq_ok {α β : Type} (x : Exec α) (f : α → Exec β) (b : β) :
    (x >>= f) = .ok b ↔ ∃ a, x = .ok a ∧ f a = .ok b := by
  cases x with
  | ok a => simp
  | error halt => simp

theorem kassert_bind_eq_ok {β : Type} (condition : Bool) (text : String) (f : Unit → Exec β)
    (b : β) : (kassert condition text >>= f) = .ok b ↔ condition = true ∧ f () = .ok b := by
  cases condition <;> simp [kassert]

theorem exec_isOk {α : Type} {x : Exec α} (completes : x.isOk = true) : ∃ a, x = .ok a := by
  cases x with
  | ok a => exact ⟨a, rfl⟩
  | error halt => cases completes

theorem exec_foldlM_inv {α β : Type} {step : β → α → Exec β} {inv : β → Prop} {valid : α → Prop}
    (keeps : ∀ s a, inv s → valid a → ∃ next, step s a = .ok next ∧ inv next) (steps : List α)
    {s : β} (holds : inv s) (areValid : ∀ a ∈ steps, valid a) :
    ∃ last, steps.foldlM step s = .ok last ∧ inv last := by
  induction steps generalizing s with
  | nil => exact ⟨s, rfl, holds⟩
  | cons a rest ih =>
      obtain ⟨next, done, holds'⟩ := keeps s a holds (areValid a List.mem_cons_self)
      obtain ⟨last, completed, holds''⟩ :=
        ih holds' fun other member => areValid other (List.mem_cons_of_mem a member)
      exact ⟨last, by rw [List.foldlM_cons, done, exec_bind_ok, completed], holds''⟩

end Drastic
