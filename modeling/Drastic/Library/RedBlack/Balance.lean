import Drastic.Library.RedBlack.Tree

namespace Library.RedBlack.ColorTree

variable {α : Type}

/-- `Balanced t c n`: the root of `t` has colour `c`, no red node has a red
child, and every path from the root to nil meets `n` black nodes. -/
inductive Balanced : ColorTree α → Color → Nat → Prop where
  | nil : Balanced nil .black 0
  | red {left right : ColorTree α} {n : Nat} (a : α) (hl : Balanced left .black n)
      (hr : Balanced right .black n) : Balanced (node .red left a right) .red n
  | black {left right : ColorTree α} {cl cr : Color} {n : Nat} (a : α) (hl : Balanced left cl n)
      (hr : Balanced right cr n) : Balanced (node .black left a right) .black (n + 1)

theorem Balanced.color_eq {t : ColorTree α} {c : Color} {n : Nat} (h : Balanced t c n) :
    t.color = c := by cases h <;> rfl

theorem balanced_nil (c : Color) (n : Nat) :
    Balanced (nil : ColorTree α) c n ↔ c = .black ∧ n = 0 := by
  constructor
  · intro h
    cases h
    exact ⟨rfl, rfl⟩
  · rintro ⟨rfl, rfl⟩
    exact .nil

theorem balanced_red (d : Direction) (near far : ColorTree α) (a : α) (c : Color) (n : Nat) :
    Balanced (mk d .red near a far) c n ↔
      c = .red ∧ Balanced near .black n ∧ Balanced far .black n := by
  constructor
  · intro h
    cases d <;> cases h with
    | red _ hl hr => first | exact ⟨rfl, hl, hr⟩ | exact ⟨rfl, hr, hl⟩
  · rintro ⟨rfl, hn, hf⟩
    cases d
    · exact .red a hn hf
    · exact .red a hf hn

theorem balanced_black (d : Direction) (near far : ColorTree α) (a : α) (c : Color) (n : Nat) :
    Balanced (mk d .black near a far) c n ↔
      c = .black ∧ ∃ m, n = m + 1 ∧ (∃ cn, Balanced near cn m) ∧ ∃ cf, Balanced far cf m := by
  constructor
  · intro h
    cases d <;> cases h with
    | black _ hl hr =>
        first
        | exact ⟨rfl, _, rfl, ⟨_, hl⟩, ⟨_, hr⟩⟩
        | exact ⟨rfl, _, rfl, ⟨_, hr⟩, ⟨_, hl⟩⟩
  · rintro ⟨rfl, m, rfl, ⟨cn, hn⟩, ⟨cf, hf⟩⟩
    cases d
    · exact .black a hn hf
    · exact .black a hf hn

theorem mk_red_balanced (d : Direction) {near far : ColorTree α} (a : α) {n : Nat}
    (hn : Balanced near .black n) (hf : Balanced far .black n) :
    Balanced (mk d .red near a far) .red n := (balanced_red ..).mpr ⟨rfl, hn, hf⟩

theorem Balanced.sides {left right : ColorTree α} {a : α} {c color : Color} {n : Nat}
    (balanced : Balanced (.node color left a right) c n) :
    (∃ cl m, Balanced left cl m) ∧ ∃ cr m, Balanced right cr m := by
  cases balanced with
  | red _ hl hr => exact ⟨⟨_, _, hl⟩, ⟨_, _, hr⟩⟩
  | black _ hl hr => exact ⟨⟨_, _, hl⟩, ⟨_, _, hr⟩⟩

theorem mk_black_balanced (d : Direction) {near far : ColorTree α} (a : α) {cn cf : Color} {n : Nat}
    (hn : Balanced near cn n) (hf : Balanced far cf n) :
    Balanced (mk d .black near a far) .black (n + 1) :=
  (balanced_black ..).mpr ⟨rfl, n, rfl, ⟨cn, hn⟩, ⟨cf, hf⟩⟩

theorem blackCounts_ne_nil (t : ColorTree α) : t.blackCounts ≠ [] := by
  induction t with
  | nil => simp [blackCounts]
  | node c left a right ihl _ => simp [blackCounts, ihl]

/-- The inductive predicate says exactly what the three colour rules say. -/
theorem balanced_iff (t : ColorTree α) (c : Color) (n : Nat) :
    Balanced t c n ↔ t.color = c ∧ t.NoRedRed ∧ ∀ count ∈ t.blackCounts, count = n := by
  induction t generalizing c n with
  | nil => simp [balanced_nil, color, NoRedRed, blackCounts, eq_comm]
  | node root left a right ihl ihr =>
      cases root with
      | red =>
          have h := balanced_red .left left right a c n
          rw [show node .red left a right = mk .left .red left a right from rfl, h, ihl, ihr]
          simp only [mk, color, NoRedRed, blackCounts, List.mem_map, List.mem_append]
          constructor
          · rintro ⟨rfl, ⟨hl, nl, bl⟩, hr, nr, br⟩
            refine ⟨rfl, ⟨fun _ => ⟨hl, hr⟩, nl, nr⟩, ?_⟩
            rintro _ ⟨count, member | member, rfl⟩
            · simpa using bl count member
            · simpa using br count member
          · rintro ⟨rfl, ⟨both, nl, nr⟩, counts⟩
            refine ⟨rfl, ⟨(both trivial).1, nl, ?_⟩, (both trivial).2, nr, ?_⟩
            · intro count member
              simpa using counts _ ⟨count, Or.inl member, rfl⟩
            · intro count member
              simpa using counts _ ⟨count, Or.inr member, rfl⟩
      | black =>
          have h := balanced_black .left left right a c n
          rw [show node .black left a right = mk .left .black left a right from rfl, h]
          simp only [ihl, ihr]
          simp only [mk, color, NoRedRed, blackCounts, List.mem_map, List.mem_append]
          constructor
          · rintro ⟨rfl, m, rfl, ⟨cl, _, nl, bl⟩, cr, _, nr, br⟩
            refine ⟨rfl, ⟨by simp, nl, nr⟩, ?_⟩
            rintro _ ⟨count, member | member, rfl⟩
            · simpa using bl count member
            · simpa using br count member
          · rintro ⟨rfl, ⟨_, nl, nr⟩, counts⟩
            obtain ⟨first, member⟩ := List.exists_mem_of_ne_nil _ (blackCounts_ne_nil left)
            have same := counts _ ⟨first, Or.inl member, rfl⟩
            simp only [if_true] at same counts
            refine ⟨rfl, first, same.symm, ⟨_, rfl, nl, ?_⟩, ⟨_, rfl, nr, ?_⟩⟩
            · intro count inside
              have := counts _ ⟨count, Or.inl inside, rfl⟩
              omega
            · intro count inside
              have := counts _ ⟨count, Or.inr inside, rfl⟩
              omega

theorem balanced_unique {t : ColorTree α} {c e : Color} {n m : Nat} (first : Balanced t c n)
    (second : Balanced t e m) : c = e ∧ n = m := by
  obtain ⟨rfl, _, countsFirst⟩ := (balanced_iff t c n).mp first
  obtain ⟨rfl, _, countsSecond⟩ := (balanced_iff t e m).mp second
  obtain ⟨count, member⟩ := List.exists_mem_of_ne_nil _ (blackCounts_ne_nil t)
  exact ⟨rfl, (countsFirst count member).symm.trans (countsSecond count member)⟩

theorem Balanced.setBlack {t : ColorTree α} {c : Color} {n : Nat} (h : Balanced t c n) :
    ∃ m, Balanced (t.setColor .black) .black m := by
  cases h with
  | nil => exact ⟨0, .nil⟩
  | red a hl hr => exact ⟨_, .black a hl hr⟩
  | black a hl hr => exact ⟨_, .black a hl hr⟩

theorem Balanced.setBlack_of_red {t : ColorTree α} {n : Nat} (h : Balanced t .red n) :
    Balanced (t.setColor .black) .black (n + 1) := by
  cases h with
  | red a hl hr => exact .black a hl hr

theorem Balanced.black_node (d : Direction) {t : ColorTree α} {n : Nat}
    (h : Balanced t .black (n + 1)) :
    ∃ near a far, t = mk d .black near a far ∧ (∃ cn, Balanced near cn n) ∧
      ∃ cf, Balanced far cf n := by
  rcases eq_nil_or_mk d t with rfl | ⟨c, near, a, far, rfl⟩
  · simp [balanced_nil] at h
  · have root : c = .black := by simpa using h.color_eq
    subst root
    obtain ⟨_, m, same, hn, hf⟩ := (balanced_black ..).mp h
    obtain rfl : n = m := by omega
    exact ⟨near, a, far, rfl, hn, hf⟩

theorem Balanced.red_node (d : Direction) {t : ColorTree α} {n : Nat} (h : Balanced t .red n) :
    ∃ near a far, t = mk d .red near a far ∧ Balanced near .black n ∧
      Balanced far .black n := by
  rcases eq_nil_or_mk d t with rfl | ⟨c, near, a, far, rfl⟩
  · simp [balanced_nil] at h
  · have root : c = .red := by simpa using h.color_eq
    subst root
    obtain ⟨_, hn, hf⟩ := (balanced_red ..).mp h
    exact ⟨near, a, far, rfl, hn, hf⟩

theorem Balanced.isRed_eq {t : ColorTree α} {c : Color} {n : Nat} (h : Balanced t c n) :
    t.isRed = decide (c = .red) := by simp [isRed, h.color_eq]

end Library.RedBlack.ColorTree
