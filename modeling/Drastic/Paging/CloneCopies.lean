import Drastic.Paging.Clone
import Drastic.Paging.LargePages

namespace Drastic

open Library.RadixTable (tableAt Copied CopiedAt)
open Library.WordMemory (readWord writeWord)

variable {σ : Type} {hhdmOffset : U64} {alloc : PhysicalAlloc σ} {valid : σ → Prop}
  {available : σ → Frame → Prop} {origin s s' : PagingState σ} {page copy frame : Frame}

def redirected (entry : U64) (frame : Frame) : U64 :=
  frame.address ||| (entry &&& ~~~systemPagingAmd64FlagAddress)

theorem flags_clear (entry : U64) :
    (entry &&& ~~~systemPagingAmd64FlagAddress) &&& systemPagingAmd64FlagAddress = 0#64 := by
  have apart : ~~~systemPagingAmd64FlagAddress &&& systemPagingAmd64FlagAddress = 0#64 := by decide
  rw [BitVec.and_assoc, apart, BitVec.and_zero]

theorem present_redirected (entry : U64) (frame : Frame) :
    present (redirected entry frame) = present entry := by
  have bits : ~~~systemPagingAmd64FlagAddress &&& systemPagingAmd64FlagP =
      systemPagingAmd64FlagP := by decide
  rw [redirected, present_entry, present, present, BitVec.and_assoc, bits]

theorem large_redirected (entry : U64) (frame : Frame) :
    large (redirected entry frame) = large entry := by
  have bits : ~~~systemPagingAmd64FlagAddress &&& systemPagingAmd64FlagPs =
      systemPagingAmd64FlagPs := by decide
  rw [redirected, large_entry, large, large, BitVec.and_assoc, bits]

theorem entryFrame_redirected (entry : U64) (frame : Frame) :
    entryFrame (redirected entry frame) = frame :=
  entryFrame_entry frame (flags_clear entry)

theorem child_redirected {entry : U64} {level : Nat} {next : Frame}
    (isChild : amd64.child level entry = some next) (frame : Frame) :
    amd64.child level (redirected entry frame) = some frame := by
  simp only [amd64, present_redirected, large_redirected, entryFrame_redirected] at isChild ⊢
  split at isChild
  case isTrue refers => rw [if_pos refers]
  case isFalse => cases isChild

theorem under_redirected (entry : U64) (frame : Frame) :
    amd64.under (redirected entry frame) = amd64.under entry := by
  funext leaf
  have same : redirected entry frame &&& ~~~systemPagingAmd64FlagAddress =
      entry &&& ~~~systemPagingAmd64FlagAddress := upper_entry frame (flags_clear entry)
  simp only [amd64, same]

theorem child_of_cloned {entry : U64} {skipLarge : Bool} {n : Nat}
    (levels : n ≠ 0 ∧ (skipLarge = false → n + 1 = 4))
    (isPresent : entry &&& systemPagingAmd64FlagP ≠ 0#64)
    (notSkipped : ¬ (skipLarge ∧ entry &&& systemPagingAmd64FlagPs ≠ 0#64)) :
    amd64.child (n + 1) entry = some (entryFrame entry) := by
  have isPresent' : present entry = true := decide_eq_true isPresent
  have upper : n + 1 = 4 ∨ ¬ large entry := by
    cases skipLarge with
    | false => exact Or.inl (levels.2 rfl)
    | true =>
        apply Or.inr
        rw [large, decide_eq_true_eq]
        exact fun isLarge => notSkipped ⟨rfl, isLarge⟩
  exact if_pos ⟨isPresent', by omega, upper⟩

theorem child_of_large {entry : U64} {n : Nat} (notTop : n + 1 ≠ 4)
    (isLarge : entry &&& systemPagingAmd64FlagPs ≠ 0#64) : amd64.child (n + 1) entry = none := by
  have isLarge' : large entry = true := decide_eq_true isLarge
  apply if_neg
  rintro ⟨_, _, top | small⟩
  · exact notTop top
  · exact small isLarge'

theorem systemPagingPageClone_outcome (fresh : FreshAllocator alloc valid available)
    (isValid : valid s.pages) (page : Uintptr) :
    Outcome alloc s.pages 1 (·.2.pages) (systemPagingPageClone alloc hhdmOffset page s)
      fun result => ∃ frame : Frame, result.1 = ⟨frame.address, frame.address + hhdmOffset⟩ ∧
        result.2.memory = copyPageAt s.memory (frame.address + hhdmOffset) page ∧
        PageTaken valid available s.pages result.2.pages frame := by
  apply (allocPage_outcome fresh s isValid).bind_done
  rintro ⟨address, t⟩ ⟨frame, rfl, same, taken⟩
  simp only at same
  exact .ok (by rfl) ⟨frame, rfl, by rw [same], taken⟩

structure EntryCloned (hhdmOffset : U64) (valid : σ → Prop) (available : σ → Frame → Prop)
    (s : PagingState σ) (copy : Frame) (slot : Slot)
    (result : Uintptr × PagingState σ) (frame : Frame) : Prop where
  pointer : result.1 = frame.address + hhdmOffset
  page : PageTaken valid available s.pages result.2.pages frame
  entry : wordAt hhdmOffset result.2.memory copy slot =
    redirected (wordAt hhdmOffset s.memory copy slot) frame
  same : ∀ slot', wordAt hhdmOffset result.2.memory frame slot' =
    wordAt hhdmOffset s.memory (entryFrame (wordAt hhdmOffset s.memory copy slot)) slot'
  others : ∀ table slot', table ≠ frame → table ≠ copy ∨ slot' ≠ slot →
    wordAt hhdmOffset result.2.memory table slot' = wordAt hhdmOffset s.memory table slot'
  outside : ∀ address, result.2.memory address ≠ s.memory address →
    ∃ table, (table = copy ∨ table = frame) ∧ InPage (table.address + hhdmOffset) address

theorem EntryCloned.allocated {result : Uintptr × PagingState σ} {slot : Slot}
    (cloned : EntryCloned hhdmOffset valid available s copy slot result frame) :
    Allocated valid available s.pages result.2.pages :=
  cloned.page.allocated

theorem EntryCloned.taken {result : Uintptr × PagingState σ} {slot : Slot}
    (cloned : EntryCloned hhdmOffset valid available s copy slot result frame) :
    Taken available s result.2 frame :=
  ⟨cloned.page.free, cloned.page.used⟩

theorem systemPagingTablePageEntryClone_outcome (fresh : FreshAllocator alloc valid available)
    (isValid : valid s.pages) (used : ¬ available s.pages copy) (slot : Slot) :
    Outcome alloc s.pages 1 (·.2.pages)
      (systemPagingTablePageEntryClone alloc hhdmOffset (slotPointer hhdmOffset copy slot) s)
      fun result => ∃ frame,
        EntryCloned hhdmOffset valid available s copy slot result frame := by
  apply (systemPagingPageClone_outcome fresh isValid _).bind_done
  rintro ⟨_, memory, pages⟩ ⟨frame, rfl, rfl, taken⟩
  have apart : copy ≠ frame := by
    rintro rfl
    exact used taken.free
  have aligned : frame.address.toNat % systemPageSize = 0 := by
    rw [address_toNat, systemPageSize, Nat.mul_mod_left]
  have copied (table : Frame) (slot' : Slot) :
      wordAt hhdmOffset (copyPageAt s.memory (frame.address + hhdmOffset)
        ((readWord s.memory (slotPointer hhdmOffset copy slot) &&& systemPagingAmd64FlagAddress) +
          hhdmOffset)) table slot' =
        if table = frame then
          wordAt hhdmOffset s.memory (entryFrame (wordAt hhdmOffset s.memory copy slot)) slot'
        else wordAt hhdmOffset s.memory table slot' := by
    rw [and_flagAddress, wordAt_copyPageAt]
    rfl
  have entry := copied copy slot
  rw [if_neg apart, wordAt] at entry
  simp only [systemPagingTableEntryUpdateAddress, assertAligned_ok "new_address" aligned,
    exec_bind_ok, exec_pure, entry, address_and_flagAddress]
  refine .ok (by rfl) ⟨frame, rfl, taken, ?_, ?_, ?_, ?_⟩
  · rw [wordAt_writeWord, if_pos ⟨rfl, rfl⟩, redirected, BitVec.or_comm]
  · intro slot'
    rw [wordAt_writeWord, if_neg (fun both => apart both.1.symm), copied, if_pos rfl]
  · intro table slot' different elsewhere
    rw [wordAt_writeWord, if_neg (by tauto), copied, if_neg different]
  · intro address changed
    by_contra nowhere
    push Not at nowhere
    have copied := nowhere frame (Or.inr rfl)
    apply changed
    calc writeWord (copyPageAt s.memory _ _) (slotPointer hhdmOffset copy slot) _ address
      _ = copyPageAt s.memory _ _ address := by
        by_contra stored
        exact nowhere copy (Or.inl rfl) (writeWord_inPage stored)
      _ = s.memory address := if_neg copied

structure CopyStart (hhdmOffset : U64) (valid : σ → Prop) (available : σ → Frame → Prop)
    (origin : PagingState σ) (level : Nat) (page copy : Frame) (s : PagingState σ) : Prop where
  valid : valid s.pages
  shrinks : ∀ frame, available s.pages frame → available origin.pages frame
  kept : ∀ frame, ¬ available origin.pages frame → ∀ slot,
    wordAt hhdmOffset s.memory frame slot = wordAt hhdmOffset origin.memory frame slot
  taken : Taken available origin s copy
  same : ∀ slot, wordAt hhdmOffset s.memory copy slot = wordAt hhdmOffset origin.memory page slot
  source : ∀ path table,
    tableAt amd64 (wordAt hhdmOffset origin.memory) level page path = some table →
      ¬ available origin.pages table

structure CopyWrites (hhdmOffset : U64) (valid : σ → Prop) (available : σ → Frame → Prop)
    (copy : Frame) (s s' : PagingState σ) : Prop where
  allocated : Allocated valid available s.pages s'.pages
  outside : ∀ address, s'.memory address ≠ s.memory address → ∃ table,
    (table = copy ∨ Taken available s s' table) ∧ InPage (table.address + hhdmOffset) address

theorem Taken.after (shrinks : ∀ frame, available s'.pages frame → available s.pages frame)
    {s'' : PagingState σ} (taken : Taken available s' s'' frame) : Taken available s s'' frame :=
  ⟨shrinks frame taken.1, taken.2⟩

theorem Taken.before {s'' : PagingState σ}
    (shrinks : ∀ frame, available s''.pages frame → available s'.pages frame)
    (taken : Taken available s s' frame) : Taken available s s'' frame :=
  ⟨taken.1, fun still => taken.2 (shrinks frame still)⟩

theorem CopyWrites.kept (writes : CopyWrites hhdmOffset valid available copy s s')
    {table : Frame} (different : table ≠ copy) (used : ¬ available s.pages table) (slot : Slot) :
    wordAt hhdmOffset s'.memory table slot = wordAt hhdmOffset s.memory table slot := by
  by_contra changed
  obtain ⟨address, inTable, differs⟩ := exists_changed changed
  obtain ⟨other, which, inside⟩ := writes.outside address differs
  obtain rfl := inPage_unique inTable inside
  rcases which with same | taken
  · exact different same
  · exact used taken.1

theorem CopyWrites.refl (isValid : valid s.pages) :
    CopyWrites hhdmOffset valid available copy s s :=
  ⟨.refl isValid, fun _ changed => absurd rfl changed⟩

theorem CopyWrites.trans {s'' : PagingState σ} {other : Frame}
    (first : CopyWrites hhdmOffset valid available copy s s')
    (second : CopyWrites hhdmOffset valid available other s' s'')
    (which : other = copy ∨ Taken available s s' other) :
    CopyWrites hhdmOffset valid available copy s s'' := by
  refine ⟨first.allocated.trans second.allocated, ?_⟩
  intro address changed
  by_cases later : s''.memory address = s'.memory address
  · rw [later] at changed
    obtain ⟨table, written, inside⟩ := first.outside address changed
    exact ⟨table, written.imp_right (·.before second.allocated.shrinks), inside⟩
  · obtain ⟨table, written, inside⟩ := second.outside address later
    refine ⟨table, ?_, inside⟩
    rcases written with rfl | taken
    · exact which.imp_right (·.before second.allocated.shrinks)
    · exact Or.inr (taken.after first.allocated.shrinks)

/-- A loop that has been through the positions below `i`. -/
structure CopyLoop (hhdmOffset : U64) (valid : σ → Prop) (available : σ → Frame → Prop)
    (origin : PagingState σ) (n : Nat) (page copy : Frame)
    (s : PagingState σ) (i : Nat) (s' : PagingState σ) : Prop where
  writes : CopyWrites hhdmOffset valid available copy s s'
  copied : ∀ slot : Slot, slot.toNat < i →
    CopiedAt amd64 (wordAt hhdmOffset origin.memory) (wordAt hhdmOffset s'.memory)
      (Taken available s s') n page copy slot
  rest : ∀ slot : Slot, i ≤ slot.toNat →
    wordAt hhdmOffset s'.memory copy slot = wordAt hhdmOffset origin.memory page slot

variable {n i : Nat} {slot : Slot}

theorem CopyLoop.skip (loop : CopyLoop hhdmOffset valid available origin n page copy s i s')
    (here : slot.toNat = i)
    (noChild : amd64.child (n + 1) (wordAt hhdmOffset s'.memory copy slot) = none) :
    CopyLoop hhdmOffset valid available origin n page copy s (i + 1) s' := by
  have same := loop.rest slot here.ge
  refine ⟨loop.writes, ?_, fun other later => loop.rest other (by omega)⟩
  intro other before
  by_cases earlier : other.toNat < i
  · exact loop.copied other earlier
  · obtain rfl : other = slot := BitVec.eq_of_toNat_eq (by omega)
    rw [same] at noChild
    rw [CopiedAt, noChild]
    exact same

theorem CopyLoop.entryStart
    (start : CopyStart hhdmOffset valid available origin (n + 1) page copy s)
    (loop : CopyLoop hhdmOffset valid available origin n page copy s i s')
    (here : slot.toNat = i)
    (isChild : amd64.child (n + 1) (wordAt hhdmOffset s'.memory copy slot) =
      some (entryFrame (wordAt hhdmOffset s'.memory copy slot)))
    {result : Uintptr × PagingState σ}
    (cloned : EntryCloned hhdmOffset valid available s' copy slot result frame) :
    CopyStart hhdmOffset valid available origin n
      (entryFrame (wordAt hhdmOffset origin.memory page slot)) frame result.2 := by
  have same := loop.rest slot here.ge
  have shrinks (other : Frame) (free : available s'.pages other) :
      available origin.pages other :=
    start.shrinks other (loop.writes.allocated.shrinks other free)
  have kept (other : Frame) (used : ¬ available origin.pages other) (slot' : Slot) :
      wordAt hhdmOffset s'.memory other slot' = wordAt hhdmOffset origin.memory other slot' := by
    have different : other ≠ copy := by
      rintro rfl
      exact used start.taken.1
    rw [loop.writes.kept different (fun free => used (start.shrinks other free)),
      start.kept other used]
  rw [same] at isChild
  have sourceBelow (path : List Slot) (table : Frame)
      (found : tableAt amd64 (wordAt hhdmOffset origin.memory) n
        (entryFrame (wordAt hhdmOffset origin.memory page slot)) path = some table) :
      ¬ available origin.pages table := by
    apply start.source (slot :: path) table
    rw [tableAt, isChild]
    exact found
  refine ⟨cloned.allocated.valid, ?_, ?_, cloned.taken.after shrinks, ?_, sourceBelow⟩
  · exact fun other free => shrinks other (cloned.allocated.shrinks other free)
  · intro other used slot'
    have notCopy : other ≠ copy := by
      rintro rfl
      exact used start.taken.1
    have notFrame : other ≠ frame := by
      rintro rfl
      exact used (shrinks other cloned.taken.1)
    rw [cloned.others other slot' notFrame (Or.inl notCopy), kept other used]
  · intro slot'
    rw [cloned.same, same]
    exact kept _ (sourceBelow [] _ (Library.RadixTable.tableAt_nil ..)) slot'

theorem EntryCloned.writes {result : Uintptr × PagingState σ}
    (cloned : EntryCloned hhdmOffset valid available s copy slot result frame) :
    CopyWrites hhdmOffset valid available copy s result.2 := by
  refine ⟨cloned.allocated, ?_⟩
  intro address changed
  obtain ⟨table, which, inside⟩ := cloned.outside address changed
  rcases which with rfl | rfl
  · exact ⟨table, Or.inl rfl, inside⟩
  · exact ⟨table, Or.inr cloned.taken, inside⟩

section

variable {result : Uintptr × PagingState σ} {s'' : PagingState σ}

theorem EntryCloned.ne_frame (used : ¬ available s.pages copy)
    (cloned : EntryCloned hhdmOffset valid available s copy slot result frame) :
    copy ≠ frame := by
  rintro rfl
  exact used cloned.taken.1

theorem EntryCloned.kept {table : Frame} {slot' : Slot}
    (cloned : EntryCloned hhdmOffset valid available s copy slot result frame)
    (writes : CopyWrites hhdmOffset valid available frame result.2 s'')
    (different : table ≠ frame) (used : ¬ available s.pages table)
    (apart : table ≠ copy ∨ slot' ≠ slot) :
    wordAt hhdmOffset s''.memory table slot' = wordAt hhdmOffset s.memory table slot' := by
  rw [writes.kept different (fun free => used (cloned.allocated.shrinks table free)),
    cloned.others table slot' different apart]

theorem EntryCloned.entry_kept (used : ¬ available s.pages copy)
    (cloned : EntryCloned hhdmOffset valid available s copy slot result frame)
    (writes : CopyWrites hhdmOffset valid available frame result.2 s'') :
    wordAt hhdmOffset s''.memory copy slot =
      redirected (wordAt hhdmOffset s.memory copy slot) frame := by
  rw [writes.kept (cloned.ne_frame used)
    (fun free => used (cloned.allocated.shrinks copy free)), cloned.entry]

theorem CopyLoop.enter
    (start : CopyStart hhdmOffset valid available origin (n + 1) page copy s)
    (loop : CopyLoop hhdmOffset valid available origin n page copy s i s')
    (here : slot.toNat = i)
    (isChild : amd64.child (n + 1) (wordAt hhdmOffset s'.memory copy slot) =
      some (entryFrame (wordAt hhdmOffset s'.memory copy slot)))
    (cloned : EntryCloned hhdmOffset valid available s' copy slot result frame)
    (writes : CopyWrites hhdmOffset valid available frame result.2 s'')
    (copied : Copied amd64 (wordAt hhdmOffset origin.memory) (wordAt hhdmOffset s''.memory)
      (Taken available result.2 s'') n
      (entryFrame (wordAt hhdmOffset origin.memory page slot)) frame) :
    CopyLoop hhdmOffset valid available origin n page copy s (i + 1) s'' := by
  have same := loop.rest slot here.ge
  have shrinks := loop.writes.allocated.shrinks
  have used : ¬ available s.pages copy := start.taken.2
  have used' : ¬ available s'.pages copy := fun free => used (shrinks copy free)
  have within := loop.writes.trans (cloned.writes.trans writes (Or.inr cloned.taken)) (Or.inl rfl)
  have later (table : Frame) (free : available s''.pages table) : available s'.pages table :=
    cloned.allocated.shrinks table (writes.allocated.shrinks table free)
  have elsewhere (other : Slot) (different : other ≠ slot) :
      wordAt hhdmOffset s''.memory copy other = wordAt hhdmOffset s'.memory copy other :=
    cloned.kept writes (cloned.ne_frame used') used' (Or.inr different)
  refine ⟨within, ?_, ?_⟩
  · intro other before
    by_cases earlier : other.toNat < i
    · refine (loop.copied other earlier).frame (fun table taken => taken.before later)
        (elsewhere other (by rintro rfl; omega)) ?_
      intro table taken slot'
      have isOld : table ≠ frame := by
        rintro rfl
        exact taken.2 cloned.taken.1
      have notCopy : table ≠ copy := by
        rintro rfl
        exact used taken.1
      exact cloned.kept writes isOld taken.2 (Or.inl notCopy)
    · obtain rfl : other = slot := BitVec.eq_of_toNat_eq (by omega)
      have entry := cloned.entry_kept used' writes
      rw [same] at isChild entry
      rw [CopiedAt, isChild]
      refine ⟨frame, (cloned.taken.after shrinks).before writes.allocated.shrinks, ?_, ?_, ?_⟩
      · rw [entry]
        exact child_redirected isChild frame
      · rw [entry, under_redirected]
      · refine copied.frame ?_ (fun _ => rfl) (fun _ _ _ => rfl)
        exact fun table taken =>
          taken.after fun other' free => shrinks other' (cloned.allocated.shrinks other' free)
  · intro other after
    rw [elsewhere other (by rintro rfl; omega)]
    exact loop.rest other (by omega)

end

end Drastic
