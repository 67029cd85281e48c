import Drastic.Paging.Mapping

namespace Drastic

open Library.RadixTable (lookup tableAt entriesAlong)

variable {σ : Type} {hhdmOffset : U64} {root : Frame} {alloc : PhysicalAlloc σ}
  {valid : σ → Prop} {available : σ → Frame → Prop} {s s' : PagingState σ}

def lastOn (virtual : Uintptr) (ops : List TableOp) : Option TableOp :=
  ops.reverse.find? fun op => op.virtual = virtual

def expected (virtual : Uintptr) (ops : List TableOp) : Option Translation :=
  match lastOn virtual ops with
  | some (.map physical _ flags) => some {
      physical := physical
      level := 1
      leafBits := systemPagingAmd64FlagConvert flags ||| systemPagingAmd64FlagP
      upper := [parentFlags, parentFlags, parentFlags] }
  | _ => none

variable {virtual : Uintptr}

theorem lastOn_concat (virtual : Uintptr) (ops : List TableOp) (op : TableOp) :
    lastOn virtual (ops ++ [op]) =
      if op.virtual = virtual then some op else lastOn virtual ops := by
  rw [lastOn, List.reverse_append, List.reverse_singleton, List.singleton_append, List.find?_cons]
  by_cases same : op.virtual = virtual <;> simp [same, lastOn]

theorem expected_other {ops : List TableOp} {op : TableOp} (other : op.virtual ≠ virtual) :
    expected virtual (ops ++ [op]) = expected virtual ops := by
  rw [expected, expected, lastOn_concat, if_neg other]

theorem foldr_under (entries : List U64) (leaf : Leaf) :
    entries.foldr amd64.under leaf = { leaf with
      upper := entries.map (fun entry => entry &&& ~~~systemPagingAmd64FlagAddress) ++
        leaf.upper } := by
  induction entries with
  | nil => rfl
  | cons entry entries ih => rw [List.foldr_cons, ih]; rfl

theorem and_offsetMask_one (aligned : virtual.toNat % systemPageSize = 0) :
    virtual &&& offsetMask 1 = 0#64 := by
  have mask : (offsetMask 1).toNat = 2 ^ 12 - 1 := by decide
  apply BitVec.eq_of_toNat_eq
  rw [BitVec.toNat_and, mask, Nat.and_two_pow_sub_one_eq_mod]
  exact aligned

theorem translate_leaf (virtual : Uintptr) (frame : Frame) {flags : U64}
    (clear : flags &&& systemPagingAmd64FlagAddress = 0#64) (upper : List U64) :
    Leaf.translate ⟨1, frame.address ||| flags, upper⟩ virtual =
      ⟨frame.address ||| (virtual &&& offsetMask 1), 1, flags, upper⟩ := by
  have mask : systemPagingAmd64FlagAddress &&& ~~~offsetMask 1 = systemPagingAmd64FlagAddress := by
    decide
  have physical : (frame.address ||| flags) &&& systemPagingAmd64FlagAddress = frame.address := by
    rw [and_flagAddress, entryFrame_entry frame clear]
  simp only [Leaf.translate, mask, physical, upper_entry frame clear]

theorem convert_clear (flags : U64) :
    (systemPagingAmd64FlagConvert flags ||| systemPagingAmd64FlagP) &&&
      systemPagingAmd64FlagAddress = 0#64 := by
  simp only [systemPagingAmd64FlagConvert]
  split <;> split <;> split <;> decide

theorem convert_present (flags : U64) :
    present (systemPagingAmd64FlagConvert flags ||| systemPagingAmd64FlagP) = true := by
  simp only [systemPagingAmd64FlagConvert]
  split <;> split <;> split <;> decide

def TableOp.translation (virtual : Uintptr) (upper : List U64) : TableOp → Option Translation
  | .map physical _ flags => some {
      physical := physical ||| (virtual &&& offsetMask 1)
      level := 1
      leafBits := systemPagingAmd64FlagConvert flags ||| systemPagingAmd64FlagP
      upper := upper }
  | .unmap _ => none

theorem LeafWritten.walk_here {op : TableOp}
    (written : LeafWritten hhdmOffset root valid available s op.virtual op.value s')
    (isValid : op.Valid) (same : slots virtual = slots op.virtual) :
    hardwareWalk hhdmOffset s'.memory root virtual = op.translation virtual
      ((entriesAlong amd64 (wordAt hhdmOffset s'.memory) 4 root (upperSlots op.virtual)).map
        fun entry => entry &&& ~~~systemPagingAmd64FlagAddress) := by
  rw [hardwareWalk, same, written.here]
  cases op with
  | unmap => simp only [TableOp.value, TableOp.translation, amd64_leaf_zero, Option.map_none]
  | map physical page flags =>
      obtain ⟨_, _, physicalAligned, low⟩ := isValid
      obtain ⟨frame, rfl⟩ := exists_frame physicalAligned low
      have isPresent := present_entry frame
        (systemPagingAmd64FlagConvert flags ||| systemPagingAmd64FlagP)
      rw [convert_present] at isPresent
      have isLeaf : amd64.leaf 1 (frame.address |||
          (systemPagingAmd64FlagConvert flags ||| systemPagingAmd64FlagP)) =
            some ⟨1, frame.address |||
              (systemPagingAmd64FlagConvert flags ||| systemPagingAmd64FlagP), []⟩ :=
        if_pos isPresent
      simp only [TableOp.value, TableOp.translation, address_and_flagAddress, isLeaf,
        Option.map_some, foldr_under, List.append_nil,
        translate_leaf virtual frame (convert_clear flags)]

/-- The tables a run on an empty PML4 adds, by their paths. -/
def tablesFor (ops : List TableOp) : Finset (List Slot) :=
  (ops.flatMap fun op => tablePaths op.virtual).toFinset

theorem tablesFor_concat (ops : List TableOp) (op : TableOp) :
    tablesFor (ops ++ [op]) = tablesFor ops ∪ (tablePaths op.virtual).toFinset := by
  rw [tablesFor, List.flatMap_append, List.toFinset_append, List.flatMap_singleton, tablesFor]

theorem tablePaths_nodup (virtual : Uintptr) : (tablePaths virtual).Nodup := by
  simp [tablePaths, upperSlots]

theorem nil_notMem_tablePaths (virtual : Uintptr) : [] ∉ tablePaths virtual := by
  simp [tablePaths, upperSlots]

/-- Entries that are not at the lowest level refer to nothing or are as
`system_paging_entry` writes them. -/
def Simple (hhdmOffset : U64) (root : Frame) (memory : Memory) : Prop :=
  ∀ path table slot, path.length < 3 →
    tableAt amd64 (wordAt hhdmOffset memory) 4 root path = some table →
    wordAt hhdmOffset memory table slot = 0#64 ∨
      ∃ frame, wordAt hhdmOffset memory table slot = parentEntry frame

structure MapInv (hhdmOffset : U64) (root : Frame) (valid : σ → Prop)
    (available : σ → Frame → Prop) (done : List TableOp) (s : PagingState σ) : Prop where
  tree : TableTree hhdmOffset root valid available s
  paths : ∀ path, tableAt amd64 (wordAt hhdmOffset s.memory) 4 root path = none ↔
    path ≠ [] ∧ path ∉ tablesFor done
  simple : Simple hhdmOffset root s.memory
  refines : ∀ virtual, Canonical virtual → virtual.toNat % systemPageSize = 0 →
    hardwareWalk hhdmOffset s.memory root virtual = expected virtual done

theorem expected_level {ops : List TableOp} {translation : Translation}
    (isExpected : expected virtual ops = some translation) : translation.level = 1 := by
  unfold expected at isExpected
  split at isExpected
  case h_1 =>
    cases isExpected
    rfl
  case h_2 => cases isExpected

theorem LeafWritten.simple {value : U64}
    (written : LeafWritten hhdmOffset root valid available s virtual value s')
    (simple : Simple hhdmOffset root s.memory) : Simple hhdmOffset root s'.memory := by
  intro path table slot short reached
  rcases written.entries path table slot short reached with ⟨older, same⟩ | other
  · rw [same]
    exact simple path table slot short older
  · exact other

theorem Simple.upper {memory : Memory} (simple : Simple hhdmOffset root memory) {pt : Frame}
    (found : tableAt amd64 (wordAt hhdmOffset memory) 4 root (upperSlots virtual) = some pt) :
    (entriesAlong amd64 (wordAt hhdmOffset memory) 4 root (upperSlots virtual)).map
      (fun entry => entry &&& ~~~systemPagingAmd64FlagAddress) =
        [parentFlags, parentFlags, parentFlags] := by
  have length := Library.RadixTable.entriesAlong_length found
  have flags := Library.RadixTable.entriesAlong_forall
    (fun entry => entry &&& ~~~systemPagingAmd64FlagAddress = parentFlags) found (by
      intro front slot n table next reached deep refers
      have upper : n ≠ 0 := by
        rintro rfl
        rw [Nat.zero_add, amd64_child_one] at refers
        cases refers
      rcases simple front table slot (by omega) reached with zero | ⟨frame, parent⟩
      · rw [zero, amd64_child_zero] at refers
        cases refers
      · rw [parent]
        exact upper_entry frame (by decide))
  change _ = List.replicate 3 parentFlags
  refine List.eq_replicate_iff.mpr ⟨?_, ?_⟩
  · rw [List.length_map, length]
    rfl
  · intro bits member
    obtain ⟨entry, inside, rfl⟩ := List.mem_map.mp member
    exact flags entry inside

theorem LeafWritten.walk_other {value : U64} {other : Uintptr}
    (written : LeafWritten hhdmOffset root valid available s virtual value s')
    (canonical : Canonical virtual) (otherCanonical : Canonical other)
    (different : other.toNat / systemPageSize ≠ virtual.toNat / systemPageSize) :
    hardwareWalk hhdmOffset s'.memory root other = hardwareWalk hhdmOffset s.memory root other := by
  have apart : slots other ≠ slots virtual :=
    fun same => different (slots_inj otherCanonical canonical same)
  rw [hardwareWalk, hardwareWalk, written.others _ rfl apart]

theorem LeafWritten.walk_expected {op : TableOp}
    (written : LeafWritten hhdmOffset root valid available s op.virtual op.value s')
    (simple : Simple hhdmOffset root s.memory) (isValid : op.Valid) (done : List TableOp) :
    hardwareWalk hhdmOffset s'.memory root op.virtual = expected op.virtual (done ++ [op]) := by
  obtain ⟨pt, found⟩ := written.found
  rw [written.walk_here isValid rfl, (written.simple simple).upper found, expected, lastOn_concat,
    if_pos rfl]
  cases op with
  | unmap => rfl
  | map physical page flags =>
      rw [TableOp.translation, TableOp.virtual, and_offsetMask_one isValid.1, BitVec.or_zero]

variable {done : List TableOp}

theorem MapInv.mappedSmall (inv : MapInv hhdmOffset root valid available done s)
    (canonical : Canonical virtual) (aligned : virtual.toNat % systemPageSize = 0) :
    MappedSmall hhdmOffset s.memory root virtual := by
  intro translation walk
  rw [inv.refines virtual canonical aligned] at walk
  exact expected_level walk

theorem missing_eq_count (mapped : MappedSmall hhdmOffset s.memory root virtual)
    {front rest : List Slot} {page : Frame} (shape : upperSlots virtual = front ++ rest)
    (found : tableAt amd64 (wordAt hhdmOffset s.memory) 4 root front = some page) :
    missing hhdmOffset s.memory page rest = rest.inits.tail.countP fun more =>
      tableAt amd64 (wordAt hhdmOffset s.memory) 4 root (front ++ more) = none := by
  induction rest generalizing front page with
  | nil => rfl
  | cons slot rest ih =>
      have full : slots virtual = front ++ slot :: (rest ++ [virtual.extractLsb' 12 9]) := by
        rw [slots_eq, shape, List.append_assoc, List.cons_append]
      have deep : 4 = front.length + (rest.length + 1 + 1) := by
        have length := congrArg List.length shape
        rw [List.length_append, List.length_cons] at length
        change 3 = _ at length
        omega
      have tails : (slot :: rest).inits.tail = [slot] :: rest.inits.tail.map (slot :: ·) := by
        cases rest <;> rfl
      rw [tails, List.countP_cons, List.countP_map, Function.comp_def]
      cases isPresent : present (wordAt hhdmOffset s.memory page slot) with
      | true =>
          have next := tableAt_present found deep (by omega) isPresent
            (mapped.entry_small _ full found deep (by omega) isPresent)
          have later := ih (by rw [shape, List.append_assoc, List.singleton_append]) next
          simp only [List.append_assoc, List.singleton_append] at later
          rw [missing_present isPresent, later, next]
          simp
      | false =>
          have none (more : List Slot) : tableAt amd64 (wordAt hhdmOffset s.memory) 4 root
              (front ++ slot :: more) = none := by
            rw [List.append_cons, Library.RadixTable.tableAt_append,
              Library.RadixTable.tableAt_concat found deep, amd64_child_absent isPresent,
              Option.bind_none]
          rw [missing_absent isPresent]
          simp [none]

theorem MapInv.missing (inv : MapInv hhdmOffset root valid available done s) {op : TableOp}
    (isValid : op.Valid) :
    (tablesFor (done ++ [op])).card = (tablesFor done).card +
      Drastic.missing hhdmOffset s.memory root (upperSlots op.virtual) := by
  have mapped := inv.mappedSmall isValid.page.2 isValid.page.1
  have new : (tablePaths op.virtual).toFinset \ tablesFor done =
      ((tablePaths op.virtual).filter fun path =>
        tableAt amd64 (wordAt hhdmOffset s.memory) 4 root path = none).toFinset := by
    ext path
    have notNil (member : path ∈ tablePaths op.virtual) : path ≠ [] := by
      rintro rfl
      exact nil_notMem_tablePaths op.virtual member
    simp only [Finset.mem_sdiff, List.mem_toFinset, List.mem_filter, inv.paths path,
      decide_eq_true_eq]
    tauto
  rw [tablesFor_concat, Finset.union_comm, ← Finset.card_sdiff_add_card, new,
    List.toFinset_card_of_nodup ((tablePaths_nodup _).filter _), ← List.countP_eq_length_filter,
    missing_eq_count mapped (List.nil_append _).symm (Library.RadixTable.tableAt_nil ..),
    Nat.add_comm]
  rfl

theorem MapInv.written (inv : MapInv hhdmOffset root valid available done s) {op : TableOp}
    (isValid : op.Valid)
    (written : LeafWritten hhdmOffset root valid available s op.virtual op.value s') :
    MapInv hhdmOffset root valid available (done ++ [op]) s' := by
  refine ⟨written.tree, ?_, written.simple inv.simple, ?_⟩
  · intro path
    rw [written.paths, inv.paths, tablesFor_concat, Finset.mem_union, List.mem_toFinset]
    tauto
  · intro virtual canonical aligned
    by_cases same : op.virtual = virtual
    · rw [← same]
      exact written.walk_expected inv.simple isValid done
    · have apart : virtual.toNat / systemPageSize ≠ op.virtual.toNat / systemPageSize := by
        intro equal
        have alignedOp := isValid.page.1
        rw [systemPageSize] at aligned alignedOp equal
        exact same (BitVec.eq_of_toNat_eq (by omega))
      rw [written.walk_other isValid.page.2 canonical apart, expected_other same]
      exact inv.refines virtual canonical aligned

theorem MapInv.start (isValid : valid s.pages)
    (zeroed : ∀ slot, wordAt hhdmOffset s.memory root slot = 0#64)
    (unused : ¬ available s.pages root) : MapInv hhdmOffset root valid available [] s := by
  have tables (path : List Slot) : tableAt amd64 (wordAt hhdmOffset s.memory) 4 root path =
      if path = [] then some root else none :=
    Library.RadixTable.tableAt_empty
      (fun level slot => by rw [zeroed, amd64_child_zero]) 4 path
  have top {path : List Slot} {table : Frame}
      (found : tableAt amd64 (wordAt hhdmOffset s.memory) 4 root path = some table) :
      path = [] ∧ table = root := by
    rw [tables] at found
    split at found
    case isTrue isNil => exact ⟨isNil, (Option.some.inj found).symm⟩
    case isFalse => cases found
  refine ⟨⟨isValid, ?_, ?_⟩, ?_, ?_, ?_⟩
  · intro path other table found found'
    rw [(top found).1, (top found').1]
  · intro path table found
    rw [(top found).2]
    exact unused
  · intro path
    rw [tables]
    by_cases isNil : path = [] <;> simp [isNil, tablesFor]
  · intro path table slot _ found
    rw [(top found).2]
    exact Or.inl (zeroed slot)
  · intro virtual _ _
    have nothing : lookup amd64 (wordAt hhdmOffset s.memory) 4 root (slots virtual) = none :=
      Library.RadixTable.lookup_empty (fun level slot => by
        rw [zeroed]
        exact ⟨amd64_child_zero level, amd64_leaf_zero level⟩) 4 (slots virtual)
    rw [hardwareWalk, nothing]
    rfl

theorem tablesFor_card_le (ops more : List TableOp) :
    (tablesFor ops).card ≤ (tablesFor (ops ++ more)).card := by
  rw [tablesFor, tablesFor, List.flatMap_append, List.toFinset_append]
  exact Finset.card_le_card Finset.subset_union_left

/-- A run makes one allocation for every table it adds. -/
theorem MapInv.run (fresh : FreshAllocator alloc valid available)
    (notNull : root.address + hhdmOffset ≠ 0#64)
    (inv : MapInv hhdmOffset root valid available done s) (ops : List TableOp)
    (areValid : ∀ op ∈ ops, op.Valid) :
    Outcome alloc s.pages ((tablesFor (done ++ ops)).card - (tablesFor done).card) (·.pages)
      (ops.foldlM (TableOp.run alloc hhdmOffset (root.address + hhdmOffset)) s)
      (MapInv hhdmOffset root valid available (done ++ ops)) := by
  induction ops generalizing done s with
  | nil =>
      rw [List.append_nil, Nat.sub_self]
      exact .ok rfl inv
  | cons op ops ih =>
      have isValid := areValid op List.mem_cons_self
      have split : (tablesFor (done ++ op :: ops)).card - (tablesFor done).card =
          Drastic.missing hhdmOffset s.memory root (upperSlots op.virtual) +
            ((tablesFor (done ++ [op] ++ ops)).card - (tablesFor (done ++ [op])).card) := by
        have added := inv.missing isValid
        have fewer := tablesFor_card_le (done ++ [op]) ops
        rw [List.append_assoc, List.singleton_append] at fewer ⊢
        omega
      have mapped := inv.mappedSmall isValid.page.2 isValid.page.1
      rw [split, List.foldlM_cons]
      apply (TableOp.run_written fresh inv.tree notNull isValid mapped).bind
      intro s' written
      have later := ih (inv.written isValid written)
        (fun other member => areValid other (List.mem_cons_of_mem op member))
      rwa [List.append_assoc, List.singleton_append] at later ⊢

/-- From a zeroed PML4, a run returns if the allocations of its tables succeed, and then the
tables translate every page as the last operation on it says. -/
theorem tables_refine_mapping (fresh : FreshAllocator alloc valid available)
    (s : PagingState σ) (isValid : valid s.pages) (root : Frame)
    (notNull : root.address + hhdmOffset ≠ 0#64)
    (zeroed : ∀ slot, wordAt hhdmOffset s.memory root slot = 0#64)
    (unused : ¬ available s.pages root) (ops : List TableOp) (areValid : ∀ op ∈ ops, op.Valid) :
    Outcome alloc s.pages (tablesFor ops).card (·.pages)
      (ops.foldlM (TableOp.run alloc hhdmOffset (root.address + hhdmOffset)) s) fun s' =>
        ∀ virtual, Canonical virtual → virtual.toNat % systemPageSize = 0 →
          hardwareWalk hhdmOffset s'.memory root virtual = expected virtual ops :=
  ((MapInv.start isValid zeroed unused).run fresh notNull ops areValid).mono
    fun _ inv => inv.refines

theorem tables_refine_mapping_sample : ∃ s',
    [.map 0x5000#64 0x1000#64 5#64, .map 0x6000#64 0x2000#64 1#64, .unmap 0x2000#64].foldlM
      (TableOp.run consecutivePages 0#64 (Frame.address 1#36 + 0#64))
      ⟨fun _ => 0#8, (2 : Nat)⟩ = .ok s' ∧
    hardwareWalk 0#64 s'.memory 1#36 0x1000#64 =
      some ⟨0x5000#64, 1, 0x8000000000000007#64, [3#64, 3#64, 3#64]⟩ ∧
    hardwareWalk 0#64 s'.memory 1#36 0x2000#64 = none := by
  have notNull : Frame.address 1#36 + 0#64 ≠ 0#64 := by decide
  have needed : (tablesFor [.map 0x5000#64 0x1000#64 5#64, .map 0x6000#64 0x2000#64 1#64,
      .unmap 0x2000#64]).card = 3 := by decide
  have supplied : Supplies consecutivePages 3 2 :=
    ⟨_, _, rfl, _, _, rfl, _, _, rfl, trivial⟩
  obtain ⟨s', returned, refines, _⟩ := (tables_refine_mapping consecutivePages_fresh
    ⟨fun _ => 0#8, 2⟩ trivial 1#36 notNull (wordAt_blank 1#36) (by decide)
    [.map 0x5000#64 0x1000#64 5#64, .map 0x6000#64 0x2000#64 1#64, .unmap 0x2000#64]
    (by simp [TableOp.Valid, Canonical, systemPageSize])).returns (needed ▸ supplied)
  exact ⟨s', returned, refines 0x1000#64 (Or.inl (by decide)) rfl,
    refines 0x2000#64 (Or.inl (by decide)) rfl⟩

end Drastic
