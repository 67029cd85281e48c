import Mathlib.Data.List.Pairwise
import Mathlib.Order.Basic
import Drastic.Library.RedBlack.Tree

namespace Library.RedBlack

variable {α κ : Type}

namespace ColorTree

def fromSide (d : Direction) (t : ColorTree α) : List α :=
  match d with
  | .left => t.inorder
  | .right => t.inorder.reverse

@[simp] theorem fromSide_nil (d : Direction) : (nil : ColorTree α).fromSide d = [] := by
  cases d <;> rfl

theorem fromSide_mk (d : Direction) (c : Color) (near far : ColorTree α) (a : α) :
    (mk d c near a far).fromSide d = near.fromSide d ++ a :: far.fromSide d := by
  cases d with
  | left => rfl
  | right => simp [fromSide, mk, inorder]

@[simp] theorem mem_fromSide (d : Direction) (t : ColorTree α) (a : α) :
    a ∈ t.fromSide d ↔ a ∈ t.inorder := by
  cases d <;> simp [fromSide]

def Lasting (p : α → Bool) (items : List α) : Prop :=
  items.Pairwise (fun a b => p a = true → p b = true)

theorem find?_mk_pos {p : α → Bool} (d : Direction) (c : Color) (near far : ColorTree α) {a : α}
    (holds : p a = true) :
    ((mk d c near a far).fromSide d).find? p = ((near.fromSide d).find? p).or (some a) := by
  rw [fromSide_mk, List.find?_append, List.find?_cons_of_pos holds]

theorem find?_mk_neg {p : α → Bool} (d : Direction) (c : Color) (near far : ColorTree α) {a : α}
    (fails : p a = false) (lasting : Lasting p ((mk d c near a far).fromSide d)) :
    ((mk d c near a far).fromSide d).find? p = (far.fromSide d).find? p := by
  rw [fromSide_mk] at lasting ⊢
  have nearer : (near.fromSide d).find? p = none := by
    rw [List.find?_eq_none]
    intro b member holds
    have := (List.pairwise_append.mp lasting).2.2 b member a (by simp) holds
    rw [fails] at this
    cases this
  rw [List.find?_append, nearer, Option.none_or, List.find?_cons_of_neg (by simp [fails])]

theorem Lasting.near {p : α → Bool} {d : Direction} {c : Color} {near far : ColorTree α} {a : α}
    (lasting : Lasting p ((mk d c near a far).fromSide d)) : Lasting p (near.fromSide d) := by
  rw [fromSide_mk] at lasting
  exact (List.pairwise_append.mp lasting).1

theorem Lasting.far {p : α → Bool} {d : Direction} {c : Color} {near far : ColorTree α} {a : α}
    (lasting : Lasting p ((mk d c near a far).fromSide d)) : Lasting p (far.fromSide d) := by
  rw [fromSide_mk] at lasting
  exact (List.pairwise_cons.mp (List.pairwise_append.mp lasting).2.1).2

end ColorTree

section Cut

variable [LinearOrder κ] (key : α → κ) (cut : κ)

def below (items : List α) : List α := items.filter (fun a => key a < cut)
def level (items : List α) : List α := items.filter (fun a => key a = cut)
def above (items : List α) : List α := items.filter (fun a => cut < key a)

variable {key cut}

theorem mem_below {items : List α} {a : α} :
    a ∈ below key cut items ↔ a ∈ items ∧ key a < cut := by
  simp [below]

theorem mem_above {items : List α} {a : α} :
    a ∈ above key cut items ↔ a ∈ items ∧ cut < key a := by
  simp [above]

theorem mem_level {items : List α} {a : α} : a ∈ level key cut items ↔ a ∈ items ∧ key a = cut := by
  simp [level]

theorem below_eq_nil {items : List α} (large : ∀ a ∈ items, cut ≤ key a) :
    below key cut items = [] := by
  rw [below, List.filter_eq_nil_iff]
  intro a member
  simpa using large a member

theorem level_eq_nil {items : List α} (larger : ∀ a ∈ items, cut < key a) :
    level key cut items = [] := by
  rw [level, List.filter_eq_nil_iff]
  intro a member
  simpa using (larger a member).ne'

variable (key cut)

theorem below_level_above (items : List α)
    (ascending : items.Pairwise (fun a b => key a < key b)) :
    below key cut items ++ (level key cut items ++ above key cut items) = items := by
  induction items with
  | nil => rfl
  | cons first rest ih =>
      obtain ⟨least, ascending⟩ := List.pairwise_cons.mp ascending
      have ih := ih ascending
      rcases lt_trichotomy (key first) cut with less | same | more
      · have parts : below key cut (first :: rest) = first :: below key cut rest ∧
            level key cut (first :: rest) = level key cut rest ∧
            above key cut (first :: rest) = above key cut rest := by
          simp [below, level, above, less, less.ne, less.le]
        rw [parts.1, parts.2.1, parts.2.2, List.cons_append, ih]
      · have parts : below key cut (first :: rest) = below key cut rest ∧
            level key cut (first :: rest) = first :: level key cut rest ∧
            above key cut (first :: rest) = above key cut rest := by
          simp [below, level, above, same]
        have empty : below key cut rest = [] :=
          below_eq_nil (fun a member => same ▸ (least a member).le)
        rw [empty, List.nil_append] at ih
        rw [parts.1, parts.2.1, parts.2.2, empty, List.nil_append, List.cons_append, ih]
      · have parts : below key cut (first :: rest) = below key cut rest ∧
            level key cut (first :: rest) = level key cut rest ∧
            above key cut (first :: rest) = first :: above key cut rest := by
          simp [below, level, above, more, more.ne', more.le]
        have larger (a : α) (member : a ∈ rest) : cut < key a := more.trans (least a member)
        have empty : below key cut rest = [] := below_eq_nil (fun a member => (larger a member).le)
        have emptyLevel : level key cut rest = [] := level_eq_nil larger
        rw [empty, emptyLevel, List.nil_append, List.nil_append] at ih
        rw [parts.1, parts.2.1, parts.2.2, empty, emptyLevel, List.nil_append, List.nil_append, ih]

theorem level_length_le (items : List α)
    (ascending : items.Pairwise (fun a b => key a < key b)) :
    (level key cut items).length ≤ 1 := by
  have part : (level key cut items).Pairwise (fun a b => key a < key b) :=
    ascending.sublist List.filter_sublist
  match shape : level key cut items with
  | [] => simp
  | [_] => simp
  | a :: b :: rest =>
      have first := (mem_level.mp (show a ∈ level key cut items by simp [shape])).2
      have second := (mem_level.mp (show b ∈ level key cut items by simp [shape])).2
      rw [shape] at part
      have less := (List.pairwise_cons.mp part).1 b (by simp)
      rw [first, second] at less
      exact absurd less (lt_irrefl cut)

end Cut

end Library.RedBlack
