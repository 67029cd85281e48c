import Drastic.Library.RadixTable

namespace Library.RadixTable

variable {P I E L : Type} {format : Format P E L} {word word' : P → I → E}
  {top n : Nat} {root page fresh : P} {path : List I} {index : I}

/-- No page is a table in two places. -/
def Sole (format : Format P E L) (word : P → I → E) (top : Nat) (root : P) : Prop :=
  ∀ path other page, tableAt format word top root path = some page →
    tableAt format word top root other = some page → path = other

theorem walk_kept (sole : Sole format word top root)
    (found : tableAt format word top root path = some page)
    (kept : ∀ front table slot, tableAt format word top root front = some table →
      table ≠ page ∨ slot ≠ index → word' table slot = word table slot)
    {full : List I} (beside : ∀ back, full ≠ path ++ index :: back) :
    tableAt format word' top root full = tableAt format word top root full ∧
      lookup format word' top root full = lookup format word top root full := by
  apply walk_congr full top root
  intro front slot back table shape reached
  apply kept front table slot reached
  by_contra same
  rw [not_or, not_not, not_not] at same
  obtain ⟨rfl, rfl⟩ := same
  rw [sole front path table reached found] at shape
  exact beside back shape

theorem not_below (path : List I) (index : I) (back : List I) : path ≠ path ++ index :: back := by
  intro shape
  have longer := congrArg List.length shape
  rw [List.length_append, List.length_cons] at longer
  omega

structure Grows (format : Format P E L) (word word' : P → I → E) (top n : Nat)
    (root page fresh : P) (path : List I) (index : I) : Prop where
  found : tableAt format word top root path = some page
  deep : top = path.length + (n + 1)
  noChild : format.child (n + 1) (word page index) = none
  noLeaf : format.leaf (n + 1) (word page index) = none
  unused : ∀ other, tableAt format word top root other ≠ some fresh
  linked : format.child (n + 1) (word' page index) = some fresh
  empty : ∀ level slot, format.child level (word' fresh slot) = none ∧
    format.leaf level (word' fresh slot) = none
  kept : ∀ table slot, table ≠ fresh → table ≠ page ∨ slot ≠ index →
    word' table slot = word table slot

theorem Grows.walk_beside (grows : Grows format word word' top n root page fresh path index)
    (sole : Sole format word top root) {full : List I}
    (beside : ∀ back, full ≠ path ++ index :: back) :
    tableAt format word' top root full = tableAt format word top root full ∧
      lookup format word' top root full = lookup format word top root full := by
  apply walk_kept sole grows.found _ beside
  intro front table slot reached elsewhere
  have old : table ≠ fresh := by
    rintro rfl
    exact grows.unused front reached
  exact grows.kept table slot old elsewhere

theorem Grows.found' (grows : Grows format word word' top n root page fresh path index)
    (sole : Sole format word top root) : tableAt format word' top root path = some page := by
  rw [(grows.walk_beside sole (not_below path index)).1, grows.found]

theorem lookup_empty (empty : ∀ level slot, format.child level (word page slot) = none ∧
    format.leaf level (word page slot) = none) (level : Nat) (path : List I) :
    lookup format word level page path = none := by
  cases level with
  | zero => cases path <;> rfl
  | succ level =>
      cases path with
      | nil => rfl
      | cons index rest => rw [lookup, (empty (level + 1) index).1, (empty (level + 1) index).2]

theorem tableAt_empty (empty : ∀ level slot, format.child level (word page slot) = none)
    (level : Nat) (path : List I) :
    tableAt format word level page path = if path = [] then some page else none := by
  cases path with
  | nil => simp
  | cons index rest =>
      cases level with
      | zero => rfl
      | succ level => simp [tableAt, empty]

theorem Grows.lookup_eq (grows : Grows format word word' top n root page fresh path index)
    (sole : Sole format word top root) (full : List I) :
    lookup format word' top root full = lookup format word top root full := by
  by_cases below : ∃ back, full = path ++ index :: back
  · obtain ⟨back, rfl⟩ := below
    have remaining : top - path.length = n + 1 := by
      have deep := grows.deep
      omega
    rw [lookup_append _ _ _ _ _ (grows.found' sole), lookup_append _ _ _ _ _ grows.found, remaining,
      lookup, lookup, grows.linked, grows.noChild, grows.noLeaf]
    simp only [lookup_empty grows.empty, Option.map_none]
  · exact (grows.walk_beside sole (not_exists.mp below)).2

theorem Grows.tableAt_eq [DecidableEq I]
    (grows : Grows format word word' top n root page fresh path index)
    (sole : Sole format word top root) (full : List I) :
    tableAt format word' top root full =
      if full = path ++ [index] then some fresh else tableAt format word top root full := by
  by_cases below : ∃ back, full = path ++ index :: back
  · obtain ⟨back, rfl⟩ := below
    have before := tableAt_concat grows.found grows.deep index
    have after := tableAt_concat (grows.found' sole) grows.deep index
    rw [grows.noChild] at before
    rw [grows.linked] at after
    rw [List.append_cons, tableAt_append (path ++ [index]) back top root, after,
      tableAt_append (path ++ [index]) back top root, before, Option.bind_some,
      tableAt_empty (fun level slot => (grows.empty level slot).1)]
    by_cases none : back = [] <;> simp [none]
  · rw [(grows.walk_beside sole (not_exists.mp below)).1, if_neg]
    intro shape
    exact below ⟨[], shape⟩

theorem Grows.sole (grows : Grows format word word' top n root page fresh path index)
    (sole : Sole format word top root) : Sole format word' top root := by
  classical
  intro full other table found found'
  rw [grows.tableAt_eq sole] at found found'
  split at found <;> split at found'
  case isTrue.isTrue first second => rw [first, second]
  case isTrue.isFalse =>
    cases found
    exact absurd found' (grows.unused other)
  case isFalse.isTrue =>
    cases found'
    exact absurd found (grows.unused full)
  case isFalse.isFalse => exact sole full other table found found'

structure SetsLeaf (format : Format P E L) (word word' : P → I → E) (top : Nat) (root page : P)
    (path : List I) (index : I) : Prop where
  found : tableAt format word top root path = some page
  deep : top = path.length + 1
  childless : ∀ entry, format.child 1 entry = none
  kept : ∀ table slot, table ≠ page ∨ slot ≠ index → word' table slot = word table slot

theorem SetsLeaf.walk_beside (sets : SetsLeaf format word word' top root page path index)
    (sole : Sole format word top root) {full : List I}
    (beside : ∀ back, full ≠ path ++ index :: back) :
    tableAt format word' top root full = tableAt format word top root full ∧
      lookup format word' top root full = lookup format word top root full := by
  apply walk_kept sole sets.found _ beside
  intro _ table slot _ elsewhere
  exact sets.kept table slot elsewhere

theorem SetsLeaf.found' (sets : SetsLeaf format word word' top root page path index)
    (sole : Sole format word top root) : tableAt format word' top root path = some page := by
  rw [(sets.walk_beside sole (not_below path index)).1, sets.found]

theorem SetsLeaf.tableAt_eq (sets : SetsLeaf format word word' top root page path index)
    (sole : Sole format word top root) (full : List I) :
    tableAt format word' top root full = tableAt format word top root full := by
  by_cases below : ∃ back, full = path ++ index :: back
  · obtain ⟨back, rfl⟩ := below
    rw [List.append_cons, tableAt_append (path ++ [index]) back top root,
      tableAt_append (path ++ [index]) back top root, tableAt_concat sets.found sets.deep,
      tableAt_concat (sets.found' sole) sets.deep, sets.childless, sets.childless]
    rfl
  · exact (sets.walk_beside sole (not_exists.mp below)).1

theorem SetsLeaf.sole (sets : SetsLeaf format word word' top root page path index)
    (sole : Sole format word top root) : Sole format word' top root := by
  intro full other table found found'
  rw [sets.tableAt_eq sole] at found found'
  exact sole full other table found found'

theorem SetsLeaf.lookup_self (sets : SetsLeaf format word word' top root page path index)
    (sole : Sole format word top root) :
    lookup format word' top root (path ++ [index]) =
      (format.leaf 1 (word' page index)).map fun leaf =>
        (entriesAlong format word' top root path).foldr format.under leaf := by
  have remaining : top - path.length = 0 + 1 := by
    have deep := sets.deep
    omega
  rw [lookup_append _ _ _ _ _ (sets.found' sole), remaining, lookup, sets.childless]

end Library.RadixTable
