import Drastic.Paging.MapRuns

namespace Drastic

variable {σ : Type} {hhdmOffset : U64} {alloc : PhysicalAlloc σ} {valid : σ → Prop}
  {available : σ → Frame → Prop}

/-! Access rights: what the processor enforces along a walk, and what
`system_paging_map` was asked for. -/

structure Rights where
  user : Bool
  write : Bool
  exec : Bool
  deriving DecidableEq, Repr

namespace Rights

def meet (a b : Rights) : Rights :=
  ⟨a.user && b.user, a.write && b.write, a.exec && b.exec⟩

def supervisor (a : Rights) : Rights := { a with user := false }

theorem supervisor_eq_iff (a : Rights) : a.supervisor = a ↔ a.user = false := by
  obtain ⟨user, write, exec⟩ := a
  cases user <;> simp [supervisor]

end Rights

/-- The rights one entry leaves: US and RW allow, XD forbids. -/
def entryRights (bits : U64) : Rights where
  user := bits &&& systemPagingAmd64FlagUs ≠ 0#64
  write := bits &&& systemPagingAmd64FlagRw ≠ 0#64
  exec := bits &&& systemPagingAmd64FlagXd = 0#64

/-- The rights all entries of a walk leave. -/
def Translation.rights (translation : Translation) : Rights :=
  translation.upper.foldr (fun bits rights => (entryRights bits).meet rights)
    (entryRights translation.leafBits)

def requestedRights (flags : U64) : Rights where
  user := flags &&& systemPagingFlagUser ≠ 0#64
  write := flags &&& systemPagingFlagWrite ≠ 0#64
  exec := flags &&& systemPagingFlagExec ≠ 0#64

theorem entryRights_convert (flags : U64) :
    entryRights (systemPagingAmd64FlagConvert flags ||| systemPagingAmd64FlagP) =
      requestedRights flags := by
  by_cases write : flags &&& systemPagingFlagWrite = 0#64 <;>
    by_cases user : flags &&& systemPagingFlagUser = 0#64 <;>
      by_cases exec : flags &&& systemPagingFlagExec = 0#64 <;>
        simp only [systemPagingAmd64FlagConvert, requestedRights, write, user, exec, ne_eq,
          not_true_eq_false, not_false_eq_true, if_true, if_false] <;> decide

/-- Every table above it takes user access away. -/
theorem meet_parent (rights : Rights) :
    (entryRights parentFlags).meet rights = rights.supervisor := by
  have parent : entryRights parentFlags = ⟨false, true, true⟩ := by decide
  rw [parent]
  simp [Rights.meet, Rights.supervisor]

theorem mapped_rights (physical : Uintptr) (level : Nat) (flags : U64) :
    Translation.rights ⟨physical, level,
      systemPagingAmd64FlagConvert flags ||| systemPagingAmd64FlagP,
      [parentFlags, parentFlags, parentFlags]⟩ = (requestedRights flags).supervisor := by
  simp only [Translation.rights, List.foldr_cons, List.foldr_nil, meet_parent, entryRights_convert]
  rfl

/-- A run returns if the allocations of its tables succeed, and then a mapped page has the
rights its last mapping asked for exactly when that did not ask for user access. -/
theorem mapped_rights_iff (fresh : FreshAllocator alloc valid available)
    (s : PagingState σ) (isValid : valid s.pages) (root : Frame)
    (notNull : root.address + hhdmOffset ≠ 0#64)
    (zeroed : ∀ slot, wordAt hhdmOffset s.memory root slot = 0#64)
    (unused : ¬ available s.pages root) (ops : List TableOp) (areValid : ∀ op ∈ ops, op.Valid) :
    Outcome alloc s.pages (tablesFor ops).card (·.pages)
      (ops.foldlM (TableOp.run alloc hhdmOffset (root.address + hhdmOffset)) s) fun s' =>
        ∀ virtual physical flags, Canonical virtual → virtual.toNat % systemPageSize = 0 →
          lastOn virtual ops = some (.map physical virtual flags) →
          ∃ translation, hardwareWalk hhdmOffset s'.memory root virtual = some translation ∧
            (translation.rights = requestedRights flags ↔
              flags &&& systemPagingFlagUser = 0#64) := by
  apply ((MapInv.start isValid zeroed unused).run fresh notNull ops areValid).mono
  intro s' inv virtual physical flags canonical aligned last
  have walk := inv.refines virtual canonical aligned
  rw [List.nil_append, expected, last] at walk
  refine ⟨_, walk, ?_⟩
  rw [mapped_rights, Rights.supervisor_eq_iff, requestedRights, decide_eq_false_iff_not, not_not]

theorem mapped_rights_iff_sample : ∃ s' translation,
    [.map 0x5000#64 0x1000#64 systemPagingFlagWrite].foldlM
      (TableOp.run consecutivePages 0#64 (Frame.address 1#36 + 0#64)) ⟨fun _ => 0#8, (2 : Nat)⟩ =
        .ok s' ∧
    hardwareWalk 0#64 s'.memory 1#36 0x1000#64 = some translation ∧
    translation.rights = requestedRights systemPagingFlagWrite := by
  have notNull : Frame.address 1#36 + 0#64 ≠ 0#64 := by decide
  have needed : (tablesFor [.map 0x5000#64 0x1000#64 systemPagingFlagWrite]).card = 3 := by decide
  have supplied : Supplies consecutivePages 3 2 :=
    ⟨_, _, rfl, _, _, rfl, _, _, rfl, trivial⟩
  obtain ⟨s', returned, granted, _⟩ := (mapped_rights_iff consecutivePages_fresh
    ⟨fun _ => 0#8, 2⟩ trivial 1#36 notNull (wordAt_blank 1#36) (by decide)
    [.map 0x5000#64 0x1000#64 systemPagingFlagWrite]
    (by simp [TableOp.Valid, Canonical, systemPageSize])).returns (needed ▸ supplied)
  obtain ⟨translation, walk, rights⟩ := granted 0x1000#64 0x5000#64 systemPagingFlagWrite
    (Or.inl (by decide)) rfl (by decide)
  exact ⟨s', translation, returned, walk, rights.mpr (by decide)⟩

/-- A page mapped for the user that the user cannot access. -/
theorem user_mapping_is_not_accessible : ∃ s' translation,
    TableOp.run consecutivePages 0#64 (Frame.address 1#36 + 0#64) ⟨fun _ => 0#8, 2⟩
      (.map 0x5000#64 0x1000#64 systemPagingFlagUser) = .ok s' ∧
    hardwareWalk 0#64 s'.memory 1#36 0x1000#64 = some translation ∧
    (requestedRights systemPagingFlagUser).user = true ∧ translation.rights.user = false :=
  ⟨_, ⟨0x5000#64, 1, 0x8000000000000005#64, [3#64, 3#64, 3#64]⟩, rfl, rfl, by decide, by decide⟩

end Drastic
