import LeafReader.Leaf
import LeafReader.UidAssembly

/-!
# The inputs of the key derivations

`leaf_diversify_key` and `leaf_personalize` put at most seven bytes of the UID between a tag and the AID,
without a length. Two inputs are equal exactly if tag and these seven bytes are: a UID of ten bytes shares
its keys with every UID that starts like it.
-/

namespace LeafReader

/-- A driver reports `uid` to `nfc_task`, which has ten bytes for it. -/
def Reported (uid : Bytes) : Prop :=
  (∃ (σ : Type) (ops : ChipOps σ) (s : σ) (sak : UInt8),
    (pn5180Iso14443Activate ops 10 s).result = .ok (uid, sak)) ∨
  ∃ (σ : Type) (spi : Spi σ) (s : σ) (sak : UInt8), (pn532FindTarget spi 10 s).1 = .ok (uid, sak)

/-- Two UIDs have different read-key inputs and different master-key inputs, and no input of the one kind
is one of the other kind. -/
def KeyInputsApart (uid uid' : Bytes) : Prop :=
  diversifyInput 0x01 uid ≠ diversifyInput 0x01 uid' ∧
    diversifyInput 0x02 uid ≠ diversifyInput 0x02 uid' ∧
      diversifyInput 0x01 uid ≠ diversifyInput 0x02 uid' ∧
        diversifyInput 0x02 uid ≠ diversifyInput 0x01 uid'

/-- So it is with every two UIDs of ISO 14443-A that the drivers report. -/
def KeyInputsDistinct : Prop :=
  ∀ uid uid' : Bytes, Reported uid → Reported uid' → uid.length ∈ [4, 7, 10] →
    uid'.length ∈ [4, 7, 10] → uid ≠ uid' → KeyInputsApart uid uid'

theorem diversifyInput_eq_iff {tag tag' : UInt8} {uid uid' : Bytes} :
    diversifyInput tag uid = diversifyInput tag' uid' ↔ tag = tag' ∧ uid.take 7 = uid'.take 7 := by
  constructor
  · intro h
    obtain ⟨htag, happ⟩ := List.cons.inj h
    exact ⟨htag, List.append_cancel_right happ⟩
  · rintro ⟨rfl, h⟩
    rw [diversifyInput, diversifyInput, h]

theorem eq_of_take_eq {uid uid' : Bytes} (h : uid.take 7 = uid'.take 7) (hle : uid.length ≤ 7)
    (hle' : uid'.length ≤ 7) : uid = uid' := by
  rwa [List.take_of_length_le hle, List.take_of_length_le hle'] at h

/-- The inputs are apart exactly if the first seven bytes of the UIDs differ, so with every two UIDs of at
most seven bytes; those of the two kinds are apart in any case. -/
theorem keyInputsApart_iff (uid uid' : Bytes) :
    (KeyInputsApart uid uid' ↔ uid.take 7 ≠ uid'.take 7) ∧
      (uid ≠ uid' → ¬ KeyInputsApart uid uid' → 7 < uid.length ∨ 7 < uid'.length) ∧
        diversifyInput 0x01 uid ≠ diversifyInput 0x02 uid' := by
  have hkind : ∀ a b : Bytes, diversifyInput 0x01 a ≠ diversifyInput 0x02 b := by
    intro a b h
    exact absurd (diversifyInput_eq_iff.1 h).1 (by decide)
  have hiff : KeyInputsApart uid uid' ↔ uid.take 7 ≠ uid'.take 7 := by
    constructor
    · intro h heq
      exact h.1 (diversifyInput_eq_iff.2 ⟨rfl, heq⟩)
    · intro hne
      have hsame : ∀ tag, diversifyInput tag uid ≠ diversifyInput tag uid' := by
        intro tag h
        exact hne (diversifyInput_eq_iff.1 h).2
      exact ⟨hsame 0x01, hsame 0x02, hkind uid uid', (hkind uid' uid).symm⟩
  refine ⟨hiff, fun hne hnot => ?_, hkind uid uid'⟩
  by_contra hshort
  push Not at hshort
  exact hnot (hiff.2 fun heq => hne (eq_of_take_eq heq hshort.1 hshort.2))

/-- A card with a UID of ten bytes, the last of which is `b`. -/
def tenByteCard (b : UInt8) : UInt8 → Level
  | 0x93 => ⟨0x88, 0x04, 0x11, 0x22, 0x04⟩
  | 0x95 => ⟨0x88, 0x33, 0x44, 0x55, 0x04⟩
  | _ => ⟨0x66, 0x77, 0x88, b, 0x20⟩

def tenByteUid (b : UInt8) : Bytes := [0x04, 0x11, 0x22, 0x33, 0x44, 0x55, 0x66, 0x77, 0x88, b]

theorem reported_tenByteUid (b : UInt8) : Reported (tenByteUid b) := by
  refine .inl ⟨UInt8, scriptedChip (tenByteCard b), 0, 0x20, ?_⟩
  simp [pn5180Iso14443Activate, scriptedChip, tenByteCard, ChipOps.request, anticollision, cascadeCmds,
    Level.answer, rats, tenByteUid]
  rfl

/-- Two cards whose UIDs differ in the last byte share both keys. -/
theorem not_keyInputsDistinct : ¬ KeyInputsDistinct := by
  intro h
  have hne : tenByteUid 0x01 ≠ tenByteUid 0x02 := by decide
  exact (h _ _ (reported_tenByteUid 0x01) (reported_tenByteUid 0x02) (by decide) (by decide) hne).1 rfl

end LeafReader
