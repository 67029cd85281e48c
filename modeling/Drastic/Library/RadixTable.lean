import Mathlib.Algebra.GroupWithZero.Nat
import Mathlib.Data.Option.Basic
import Mathlib.Tactic.Common

namespace Library.RadixTable

variable {P I E L : Type}

/-- How the entries of a tree of tables are read, by the level of their table: as a
reference to a table one level below, as a leaf, or as nothing. -/
structure Format (P E L : Type) where
  child : Nat → E → Option P
  leaf : Nat → E → Option L
  under : E → L → L

variable (format : Format P E L) (word : P → I → E)

def tableAt : Nat → P → List I → Option P
  | _, page, [] => some page
  | 0, _, _ :: _ => none
  | level + 1, page, index :: rest =>
      (format.child (level + 1) (word page index)).bind fun next => tableAt level next rest

def lookup : Nat → P → List I → Option L
  | level + 1, page, index :: rest =>
      match format.child (level + 1) (word page index) with
      | some next => (lookup level next rest).map (format.under (word page index))
      | none => format.leaf (level + 1) (word page index)
  | _, _, _ => none

def entriesAlong : Nat → P → List I → List E
  | level + 1, page, index :: rest => word page index ::
      match format.child (level + 1) (word page index) with
      | some next => entriesAlong level next rest
      | none => []
  | _, _, _ => []

/-- The tables below a table, one for each path of some indices that leads to one. -/
def tablesBelow (indices : List I) : Nat → P → Nat
  | 0, _ => 0
  | level + 1, page => (indices.map fun index =>
      (format.child (level + 1) (word page index)).elim 0 fun next =>
        1 + tablesBelow indices level next).sum

variable {format word} {word' : P → I → E}

@[simp] theorem tableAt_nil (level : Nat) (page : P) :
    tableAt format word level page [] = some page := by
  cases level <;> rfl

theorem tableAt_append (path rest : List I) (level : Nat) (page : P) :
    tableAt format word level page (path ++ rest) =
      (tableAt format word level page path).bind fun next =>
        tableAt format word (level - path.length) next rest := by
  induction path generalizing level page with
  | nil => simp
  | cons index path ih =>
      cases level with
      | zero => rfl
      | succ level =>
          rw [List.cons_append, tableAt, tableAt, Option.bind_assoc]
          simp only [ih, List.length_cons, Nat.add_sub_add_right]

theorem tableAt_concat {path : List I} {level n : Nat} {root page : P}
    (found : tableAt format word level root path = some page) (deep : level = path.length + (n + 1))
    (index : I) : tableAt format word level root (path ++ [index]) =
      format.child (n + 1) (word page index) := by
  have rest : level - path.length = n + 1 := by omega
  rw [tableAt_append, found, Option.bind_some, rest, tableAt]
  simp

theorem lookup_append (path rest : List I) (level : Nat) (page next : P)
    (found : tableAt format word level page path = some next) :
    lookup format word level page (path ++ rest) =
      (lookup format word (level - path.length) next rest).map fun leaf =>
        (entriesAlong format word level page path).foldr format.under leaf := by
  induction path generalizing level page with
  | nil =>
      rw [tableAt_nil, Option.some.injEq] at found
      cases level <;> simp [entriesAlong, found]
  | cons index path ih =>
      cases level with
      | zero => cases found
      | succ level =>
          rw [tableAt, Option.bind_eq_some_iff] at found
          obtain ⟨child, isChild, below⟩ := found
          rw [List.cons_append, lookup, entriesAlong]
          simp only [isChild, ih level child below, List.length_cons, Nat.add_sub_add_right,
            Option.map_map, List.foldr_cons]
          rfl

theorem tableAt_mono (other : Format P E L)
    (follows : ∀ level entry next, format.child level entry = some next →
      other.child level entry = some next) {path : List I} {level : Nat} {root page : P}
    (found : tableAt format word level root path = some page) :
    tableAt other word level root path = some page := by
  induction path generalizing level root with
  | nil => rwa [tableAt_nil] at found ⊢
  | cons index rest ih =>
      cases level with
      | zero => cases found
      | succ level =>
          rw [tableAt, Option.bind_eq_some_iff] at found ⊢
          obtain ⟨next, isChild, below⟩ := found
          exact ⟨next, follows _ _ _ isChild, ih below⟩

theorem lookup_ends {path : List I} {level : Nat} {root : P} {found : L}
    (walk : lookup format word level root path = some found) :
    ∃ front index back page n leaf, path = front ++ index :: back ∧
      tableAt format word level root front = some page ∧ level = front.length + (n + 1) ∧
      format.child (n + 1) (word page index) = none ∧
      format.leaf (n + 1) (word page index) = some leaf ∧
      found = (entriesAlong format word level root front).foldr format.under leaf := by
  induction path generalizing level root found with
  | nil => cases level <;> cases walk
  | cons index rest ih =>
      cases level with
      | zero => cases walk
      | succ level =>
          rw [lookup] at walk
          cases isChild : format.child (level + 1) (word root index) with
          | none =>
              simp only [isChild] at walk
              exact ⟨[], index, rest, root, level, found, rfl, rfl, by simp, isChild, walk, rfl⟩
          | some next =>
              simp only [isChild, Option.map_eq_some_iff] at walk
              obtain ⟨below, walk, rfl⟩ := walk
              obtain ⟨front, other, back, page, n, leaf, rfl, reached, deep, ends⟩ := ih walk
              refine ⟨index :: front, other, back, page, n, leaf, rfl, ?_, ?_, ends.1, ends.2.1, ?_⟩
              · rw [tableAt, isChild, Option.bind_some, reached]
              · rw [List.length_cons]
                omega
              · rw [entriesAlong, isChild, List.foldr_cons, ends.2.2]

theorem walk_congr (full : List I) (level : Nat) (root : P)
    (same : ∀ front index back page, full = front ++ index :: back →
      tableAt format word level root front = some page → word' page index = word page index) :
    tableAt format word' level root full = tableAt format word level root full ∧
      lookup format word' level root full = lookup format word level root full := by
  induction full generalizing level root with
  | nil => cases level <;> exact ⟨rfl, rfl⟩
  | cons index rest ih =>
      cases level with
      | zero => exact ⟨rfl, rfl⟩
      | succ level =>
          have here := same [] index rest root rfl rfl
          rw [tableAt, tableAt, lookup, lookup, here]
          cases isChild : format.child (level + 1) (word root index) with
          | none => exact ⟨rfl, rfl⟩
          | some next =>
              have below := ih level next (by
                intro front other back page shape found
                apply same (index :: front) other back page (by rw [shape, List.cons_append])
                rw [tableAt, isChild]
                exact found)
              simp only [Option.bind_some, below.1, below.2, and_self]

theorem entriesAlong_length {path : List I} {level : Nat} {root page : P}
    (found : tableAt format word level root path = some page) :
    (entriesAlong format word level root path).length = path.length := by
  induction path generalizing level root with
  | nil => cases level <;> rfl
  | cons index path ih =>
      cases level with
      | zero => cases found
      | succ level =>
          rw [tableAt, Option.bind_eq_some_iff] at found
          obtain ⟨child, isChild, below⟩ := found
          rw [entriesAlong, isChild, List.length_cons, List.length_cons, ih below]

theorem entriesAlong_forall {path : List I} {level : Nat} {root page : P} (good : E → Prop)
    (found : tableAt format word level root path = some page)
    (all : ∀ front index n table next, tableAt format word level root front = some table →
      level = front.length + (n + 1) → format.child (n + 1) (word table index) = some next →
      good (word table index)) :
    ∀ entry ∈ entriesAlong format word level root path, good entry := by
  induction path generalizing level root with
  | nil => cases level <;> simp [entriesAlong]
  | cons index path ih =>
      cases level with
      | zero => cases found
      | succ level =>
          rw [tableAt, Option.bind_eq_some_iff] at found
          obtain ⟨child, isChild, below⟩ := found
          rw [entriesAlong, isChild]
          intro entry member
          rcases List.mem_cons.mp member with rfl | later
          · exact all [] index level root child rfl (by simp) isChild
          · refine ih below ?_ entry later
            intro front other n table next reached deep refers
            refine all (index :: front) other n table next ?_ (by simp [deep]; omega) refers
            rw [tableAt, isChild]
            exact reached

/-- One tree of tables holds what another one held, entry by entry: references lead to
copies, and all other entries are the same. `owned` are the tables of the copy. -/
def Copied (format : Format P E L) (word word' : P → I → E) (owned : P → Prop) :
    Nat → P → P → Prop
  | 0, _, _ => True
  | level + 1, page, copy => ∀ index, match format.child (level + 1) (word page index) with
      | some next => ∃ next', owned next' ∧
          format.child (level + 1) (word' copy index) = some next' ∧
          format.under (word' copy index) = format.under (word page index) ∧
          Copied format word word' owned level next next'
      | none => word' copy index = word page index

def CopiedAt (format : Format P E L) (word word' : P → I → E) (owned : P → Prop) (level : Nat)
    (page copy : P) (index : I) : Prop :=
  match format.child (level + 1) (word page index) with
  | some next => ∃ next', owned next' ∧
      format.child (level + 1) (word' copy index) = some next' ∧
      format.under (word' copy index) = format.under (word page index) ∧
      Copied format word word' owned level next next'
  | none => word' copy index = word page index

variable {owned owned' : P → Prop}

theorem copied_succ {level : Nat} {page copy : P} :
    Copied format word word' owned (level + 1) page copy ↔
      ∀ index, CopiedAt format word word' owned level page copy index := Iff.rfl

theorem Copied.lookup_eq {level : Nat} {page copy : P}
    (copied : Copied format word word' owned level page copy) (path : List I) :
    lookup format word' level copy path = lookup format word level page path := by
  induction level generalizing page copy path with
  | zero => cases path <;> rfl
  | succ level ih =>
      cases path with
      | nil => rfl
      | cons index rest =>
          have here := copied index
          rw [lookup, lookup]
          cases isChild : format.child (level + 1) (word page index) with
          | none =>
              rw [isChild] at here
              simp only at here
              rw [here, isChild]
          | some next =>
              rw [isChild] at here
              obtain ⟨next', _, isChild', flags, below⟩ := here
              rw [isChild']
              simp only [ih below, flags]

theorem Copied.frame {changed : P → I → E} {level : Nat} {page copy : P}
    (copied : Copied format word word' owned level page copy)
    (within : ∀ table, owned table → owned' table)
    (top : ∀ index, changed copy index = word' copy index)
    (kept : ∀ table, owned table → ∀ index, changed table index = word' table index) :
    Copied format word changed owned' level page copy := by
  induction level generalizing page copy with
  | zero => trivial
  | succ level ih =>
      intro index
      have here := copied index
      cases isChild : format.child (level + 1) (word page index) with
      | none =>
          rw [isChild] at here
          exact (top index).trans here
      | some next =>
          rw [isChild] at here
          obtain ⟨next', owns, isChild', flags, below⟩ := here
          refine ⟨next', within _ owns, ?_, ?_, ih below (kept next' owns)⟩
          · rw [top index, isChild']
          · rw [top index, flags]

theorem CopiedAt.frame {changed : P → I → E} {level : Nat} {page copy : P} {index : I}
    (copied : CopiedAt format word word' owned level page copy index)
    (within : ∀ table, owned table → owned' table)
    (here : changed copy index = word' copy index)
    (kept : ∀ table, owned table → ∀ index, changed table index = word' table index) :
    CopiedAt format word changed owned' level page copy index := by
  unfold CopiedAt at copied ⊢
  cases isChild : format.child (level + 1) (word page index) with
  | none =>
      rw [isChild] at copied
      exact here.trans copied
  | some next =>
      rw [isChild] at copied
      obtain ⟨next', owns, isChild', flags, below⟩ := copied
      refine ⟨next', within _ owns, ?_, ?_, below.frame within (kept next' owns) kept⟩
      · rw [here, isChild']
      · rw [here, flags]

end Library.RadixTable
