import Mathlib.Data.List.Basic
import Drastic.Base

namespace Drastic

/-! `base_bytes.c`, `base_string.c` and `base_stream.c`. -/

/-- A slice of an object: `ptr` is the offset in the object, `len` an `Int` of the code. -/
structure Bytes where
  ptr : Nat
  len : Int
  deriving DecidableEq, Repr

/-- A buffer that is read only is given by its bytes. -/
def bytesGet (b : List U8) (i : Int) : Exec U8 := do
  kassert (0 ≤ i && i < b.length) "0 <= i && i < b.len"
  return b.getD i.toNat 0#8

def bytesSet (data : List U8) (b : Bytes) (i : Int) (byte : U8) : Exec (List U8) := do
  kassert (0 ≤ i && i < b.len) "0 <= i && i < b.len"
  return data.set (b.ptr + i.toNat) byte

def bytesSlice (b : Bytes) (first last : Int) : Exec Bytes := do
  kassert (0 ≤ first && first ≤ last && last ≤ b.len) "0 <= from && from <= to && to <= b.len"
  return ⟨b.ptr + first.toNat, last - first⟩

def bytesReverseLoop : Nat → List U8 → Nat → Nat → Exec (List U8)
  | 0, _, _, _ => .error .recursionDepth
  | fuel + 1, data, start, last =>
    if last > start then
      let temp := data.getD start 0#8
      let data := data.set start (data.getD last 0#8)
      let data := data.set last temp
      bytesReverseLoop fuel data (start + 1) (last - 1)
    else .ok data

def bytesReverse (data : List U8) (b : Bytes) : Exec (List U8) :=
  if b.len ≤ 1 then .ok data
  else bytesReverseLoop b.len.toNat data b.ptr (b.ptr + b.len.toNat - 1)

/-- The bytes that a reader of a slice sees. -/
def Bytes.read (data : List U8) (b : Bytes) : List U8 := (data.drop b.ptr).take b.len.toNat

def str (text : String) : List U8 := text.toList.map fun c => BitVec.ofNat 8 c.toNat

def stringGet (s : List U8) (i : Int) : Exec U8 := do
  kassert (0 ≤ i && i < s.length) "0 <= i && i < s.len"
  return s.getD i.toNat 0#8

structure CString where
  bytes : List U8
  terminated : 0#8 ∈ bytes

def charsBeforeNul : List U8 → Nat
  | [] => 0
  | byte :: rest => if byte = 0#8 then 0 else charsBeforeNul rest + 1

def stringFromChar : Option CString → List U8
  | none => []
  | some s => s.bytes.take (charsBeforeNul s.bytes)

inductive StreamOperation where
  | query
  | write
  | read
  deriving DecidableEq, Repr

/-- `func` with what lies behind the `data` pointer as a state. -/
structure Stream (σ : Type) where
  func : StreamOperation → List U8 → σ → Int × σ

def streamWrite {σ : Type} (s : Stream σ) (bytes : List U8) (data : σ) : σ :=
  (s.func .write bytes data).2

def streamWriteByte {σ : Type} (s : Stream σ) (byte : U8) (data : σ) : σ :=
  streamWrite s [byte] data

def recorder : Stream (List U8) where
  func
  | .write, bytes, written => (bytes.length, written ++ bytes)
  | _, _, written => (0, written)

@[simp] theorem streamWrite_recorder (bytes written : List U8) :
    streamWrite recorder bytes written = written ++ bytes := rfl

theorem stringGet_ok (s : List U8) (i : Nat) (inside : i < s.length) :
    stringGet s i = .ok s[i] := by
  simp [stringGet, inside]

theorem bytesGet_ok (b : List U8) (i : Nat) (inside : i < b.length) :
    bytesGet b i = .ok b[i] := by
  simp [bytesGet, inside]

theorem bytesReverseLoop_eq (fuel : Nat) (front middle back : List U8) (start last : Nat)
    (first : start = front.length) (stop : last + 1 = front.length + middle.length)
    (enough : middle.length < 2 * fuel) :
    bytesReverseLoop fuel (front ++ (middle ++ back)) start last =
      .ok (front ++ (middle.reverse ++ back)) := by
  induction fuel generalizing front middle back start last with
  | zero => exact absurd enough (Nat.not_lt_zero _)
  | succ fuel ih =>
      unfold bytesReverseLoop
      cases middle with
      | nil =>
          rw [if_neg (by simp at stop; omega)]
          rfl
      | cons a rest =>
          rcases List.eq_nil_or_concat' rest with rfl | ⟨inner, b, rfl⟩
          · rw [if_neg (by simp at stop; omega)]
            rfl
          · simp only [List.length_cons, List.length_append, List.length_nil] at stop enough
            have place : last = (front ++ a :: inner).length := by
              simp only [List.length_append, List.length_cons]
              omega
            have split : front ++ (a :: (inner ++ [b]) ++ back) =
                (front ++ a :: inner) ++ b :: back := by simp
            have atStart : (front ++ (a :: (inner ++ [b]) ++ back)).getD start 0#8 = a := by
              simp [first]
            have atLast : (front ++ (a :: (inner ++ [b]) ++ back)).getD last 0#8 = b := by
              rw [split, place]
              simp
            have swapped : ((front ++ (a :: (inner ++ [b]) ++ back)).set start b).set last a =
                (front ++ [b]) ++ (inner ++ a :: back) := by
              rw [first, place]
              simp
            rw [if_pos (by omega)]
            simp only [atStart, atLast, swapped]
            rw [ih (front ++ [b]) inner (a :: back) (start + 1) (last - 1) (by simp [first])
              (by simp only [List.length_append, List.length_cons, List.length_nil]; omega)
              (by omega)]
            simp

theorem bytesReverse_front (written rest : List U8) :
    bytesReverse (written ++ rest) ⟨0, written.length⟩ = .ok (written.reverse ++ rest) := by
  unfold bytesReverse
  by_cases short : (written.length : Int) ≤ 1
  · rw [if_pos short]
    match written with
    | [] => rfl
    | [_] => rfl
    | _ :: _ :: _ => simp at short; omega
  · rw [if_neg short]
    exact bytesReverseLoop_eq _ [] written rest 0 _ rfl (by simp; omega) (by simp; omega)

end Drastic
