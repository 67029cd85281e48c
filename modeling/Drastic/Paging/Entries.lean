import Drastic.Paging.HardwareWalk

namespace Drastic

theorem entry_and_disjoint (frame : Frame) (flags mask : U64)
    (disjoint : systemPagingAmd64FlagAddress &&& mask = 0#64) :
    (frame.address ||| flags) &&& mask = flags &&& mask := by
  rw [BitVec.and_or_distrib_right, ← address_and_flagAddress, BitVec.and_assoc, disjoint,
    BitVec.and_zero, BitVec.zero_or]

theorem present_entry (frame : Frame) (flags : U64) :
    present (frame.address ||| flags) = present flags := by
  rw [present, present, entry_and_disjoint frame flags _ (by decide)]

theorem large_entry (frame : Frame) (flags : U64) :
    large (frame.address ||| flags) = large flags := by
  rw [large, large, entry_and_disjoint frame flags _ (by decide)]

theorem entryFrame_entry (frame : Frame) {flags : U64}
    (clear : flags &&& systemPagingAmd64FlagAddress = 0#64) :
    entryFrame (frame.address ||| flags) = frame := by
  have masked : (frame.address ||| flags) &&& systemPagingAmd64FlagAddress = frame.address := by
    rw [BitVec.and_or_distrib_right, clear, address_and_flagAddress, BitVec.or_zero]
  rw [and_flagAddress] at masked
  rw [← entryFrame_address (entryFrame _), masked, entryFrame_address]

theorem upper_entry (frame : Frame) {flags : U64}
    (clear : flags &&& systemPagingAmd64FlagAddress = 0#64) :
    (frame.address ||| flags) &&& ~~~systemPagingAmd64FlagAddress = flags := by
  rw [entry_and_disjoint frame flags _ (by decide)]
  apply BitVec.eq_of_getLsbD_eq
  intro i bound
  have bit := congrArg (fun word => word.getLsbD i) clear
  simp only [BitVec.getLsbD_and, BitVec.getLsbD_zero] at bit
  rw [BitVec.getLsbD_and, BitVec.getLsbD_not]
  cases isSet : flags.getLsbD i <;> simp_all

def parentEntry (frame : Frame) : U64 := frame.address ||| parentFlags

theorem amd64_child_zero (level : Nat) : amd64.child level 0#64 = none := rfl

theorem amd64_leaf_zero (level : Nat) : amd64.leaf level 0#64 = none := rfl

theorem amd64_child_absent {entry : U64} (absent : present entry = false) (level : Nat) :
    amd64.child level entry = none := by simp [amd64, absent]

theorem amd64_leaf_absent {entry : U64} (absent : present entry = false) (level : Nat) :
    amd64.leaf level entry = none := by simp [amd64, absent]

theorem amd64_child_one (entry : U64) : amd64.child 1 entry = none := by simp [amd64]

theorem amd64_child_parent (frame : Frame) {level : Nat} (upper : level ≠ 1) :
    amd64.child level (parentEntry frame) = some frame := by
  have isPresent : present (parentEntry frame) = true := by
    rw [parentEntry, present_entry]
    decide
  have isSmall : large (parentEntry frame) = false := by
    rw [parentEntry, large_entry]
    decide
  have same : entryFrame (parentEntry frame) = frame := entryFrame_entry frame (by decide)
  simp [amd64, isPresent, isSmall, same, upper]

end Drastic
