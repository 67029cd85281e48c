import Drastic.Library.RadixGrowth

namespace Library.RadixTable

variable {P I E L : Type} {format : Format P E L} {word word' : P → I → E} {owned : P → Prop}
  {level n : Nat} {root : P}

/-- No table is in two places, and the tables below the root are the owned ones. -/
structure Owns (format : Format P E L) (word : P → I → E) (owned : P → Prop) (level : Nat)
    (root : P) : Prop where
  sole : Sole format word level root
  below : ∀ path table, tableAt format word level root path = some table →
    table = root ∨ owned table
  all : ∀ table, owned table → ∃ path, tableAt format word level root path = some table

structure OwnsWithin (format : Format P E L) (word : P → I → E) (owned : P → Prop) (level : Nat)
    (root : P) (within : I → Prop) : Prop where
  once : ∀ index rest index' rest' table, within index → within index' →
    tableAt format word level root (index :: rest) = some table →
    tableAt format word level root (index' :: rest') = some table →
    index :: rest = index' :: rest'
  below : ∀ index rest table, within index →
    tableAt format word level root (index :: rest) = some table → owned table
  all : ∀ table, owned table → ∃ index rest, within index ∧
    tableAt format word level root (index :: rest) = some table

theorem OwnsWithin.start (nothing : ∀ table, ¬ owned table) :
    OwnsWithin format word owned level root fun _ => False where
  once _ _ _ _ _ inside := inside.elim
  below _ _ _ inside := inside.elim
  all table owns := absurd owns (nothing table)

theorem tableAt_childless {index : I} (noChild : format.child (n + 1) (word root index) = none)
    (rest : List I) : tableAt format word (n + 1) root (index :: rest) = none := by
  rw [tableAt, noChild, Option.bind_none]

theorem OwnsWithin.skip {within : I → Prop} {new : I}
    (owns : OwnsWithin format word owned (n + 1) root within)
    (noChild : format.child (n + 1) (word root new) = none) :
    OwnsWithin format word owned (n + 1) root fun index => within index ∨ index = new := by
  have old {index : I} {rest : List I} {table : P} (inside : within index ∨ index = new)
      (found : tableAt format word (n + 1) root (index :: rest) = some table) : within index := by
    rcases inside with inside | rfl
    · exact inside
    · rw [tableAt_childless noChild] at found
      cases found
  refine ⟨?_, ?_, ?_⟩
  · intro index rest index' rest' table inside inside' found found'
    exact owns.once _ _ _ _ table (old inside found) (old inside' found') found found'
  · intro index rest table inside found
    exact owns.below index rest table (old inside found) found
  · intro table isOwned
    obtain ⟨index, rest, inside, found⟩ := owns.all table isOwned
    exact ⟨index, rest, Or.inl inside, found⟩

theorem OwnsWithin.hang {within : I → Prop} {new : I} {child : P} {ownedBelow owned' : P → Prop}
    (owns : OwnsWithin format word owned (n + 1) root within)
    (apart : ¬ within new)
    (isChild : format.child (n + 1) (word' root new) = some child)
    (ownsBelow : Owns format word' ownedBelow n child)
    (kept : ∀ index rest, within index → tableAt format word' (n + 1) root (index :: rest) =
      tableAt format word (n + 1) root (index :: rest))
    (split : ∀ table, owned' table ↔ owned table ∨ table = child ∨ ownedBelow table)
    (disjoint : ∀ table, owned table → ¬ (table = child ∨ ownedBelow table)) :
    OwnsWithin format word' owned' (n + 1) root fun index => within index ∨ index = new := by
  have entered (rest : List I) : tableAt format word' (n + 1) root (new :: rest) =
      tableAt format word' n child rest := by
    rw [tableAt, isChild, Option.bind_some]
  have source {index : I} {rest : List I} {table : P} (inside : within index ∨ index = new)
      (found : tableAt format word' (n + 1) root (index :: rest) = some table) :
      (within index ∧ owned table) ∨
        (index = new ∧ (table = child ∨ ownedBelow table)) := by
    rcases inside with inside | rfl
    · rw [kept index rest inside] at found
      exact Or.inl ⟨inside, owns.below index rest table inside found⟩
    · rw [entered] at found
      exact Or.inr ⟨rfl, ownsBelow.below rest table found⟩
  refine ⟨?_, ?_, ?_⟩
  · intro index rest index' rest' table inside inside' found found'
    rcases source inside found with ⟨old, isOwned⟩ | ⟨rfl, isBelow⟩ <;>
      rcases source inside' found' with ⟨old', isOwned'⟩ | ⟨rfl, isBelow'⟩
    · rw [kept index rest old] at found
      rw [kept index' rest' old'] at found'
      exact owns.once _ _ _ _ table old old' found found'
    · exact absurd isBelow' (disjoint table isOwned)
    · exact absurd isBelow (disjoint table isOwned')
    · rw [entered] at found found'
      rw [ownsBelow.sole rest rest' table found found']
  · intro index rest table inside found
    rw [split]
    rcases source inside found with ⟨_, isOwned⟩ | ⟨_, isBelow⟩
    · exact Or.inl isOwned
    · exact Or.inr isBelow
  · intro table isOwned
    rw [split] at isOwned
    rcases isOwned with isOld | rfl | isBelow
    · obtain ⟨index, rest, inside, found⟩ := owns.all table isOld
      exact ⟨index, rest, Or.inl inside, (kept index rest inside).trans found⟩
    · exact ⟨new, [], Or.inr rfl, by rw [entered, tableAt_nil]⟩
    · obtain ⟨path, found⟩ := ownsBelow.all table isBelow
      exact ⟨new, path, Or.inr rfl, by rw [entered, found]⟩

theorem OwnsWithin.owns {within : I → Prop}
    (owns : OwnsWithin format word owned level root within) (everything : ∀ index, within index)
    (notOwned : ¬ owned root) : Owns format word owned level root := by
  have top {path : List I} (found : tableAt format word level root path = some root) :
      path = [] := by
    cases path with
    | nil => rfl
    | cons index rest =>
        exact absurd (owns.below index rest root (everything index) found) notOwned
  refine ⟨?_, ?_, ?_⟩
  · intro path other table found found'
    cases path with
    | nil =>
        rw [tableAt_nil, Option.some.injEq] at found
        rw [← found] at found'
        exact (top found').symm
    | cons index rest =>
        cases other with
        | nil =>
            rw [tableAt_nil, Option.some.injEq] at found'
            rw [← found'] at found
            exact top found
        | cons index' rest' =>
            exact owns.once _ _ _ _ table (everything index) (everything index') found found'
  · intro path table found
    cases path with
    | nil =>
        rw [tableAt_nil, Option.some.injEq] at found
        exact Or.inl found.symm
    | cons index rest => exact Or.inr (owns.below index rest table (everything index) found)
  · intro table isOwned
    obtain ⟨index, rest, _, found⟩ := owns.all table isOwned
    exact ⟨index :: rest, found⟩

theorem Owns.leaf (childless : ∀ entry, format.child 1 entry = none)
    (nothing : ∀ table, ¬ owned table) : Owns format word owned 1 root := by
  have top {path : List I} {table : P} (found : tableAt format word 1 root path = some table) :
      path = [] ∧ table = root := by
    cases path with
    | nil =>
        rw [tableAt_nil, Option.some.injEq] at found
        exact ⟨rfl, found.symm⟩
    | cons index rest =>
        rw [tableAt_childless (childless _)] at found
        cases found
  refine ⟨?_, ?_, fun table isOwned => absurd isOwned (nothing table)⟩
  · intro path other table found found'
    rw [(top found).1, (top found').1]
  · exact fun path table found => Or.inl (top found).2

end Library.RadixTable
