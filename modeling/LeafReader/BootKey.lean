import LeafReader.Leaf

/-!
# The site key at boot (`app_main.c`)

NVS initialisation with its erase and retry, and `provision_default_site_key_if_missing`. Every call of NVS
either does its work or returns an error of the environment's choice. `leaf_get_site_key` makes one code of
all failures, and the provisioning step takes each of them for a missing key.
-/

namespace LeafReader

/-- Error codes of the NVS functions. -/
inductive NvsErr
  | noFreePages | newVersionFound | notFound | invalidLength | other
deriving DecidableEq, Repr

/-- The `site_key` entry of the namespace `leaf`, a blob of any length. -/
structure Nvs where
  siteKey : Option Bytes
deriving DecidableEq

/-- Which calls of a boot fail, and with what; `none` is a call that does its work. -/
structure NvsFaults where
  init : Option NvsErr
  erase : Option NvsErr
  retry : Option NvsErr
  openRead : Option NvsErr
  getBlob : Option NvsErr
  openWrite : Option NvsErr
  setBlob : Option NvsErr
  commit : Option NvsErr
  -- a blob that was set is in the flash without a commit
  flushed : Bool

namespace NvsFaults

variable (f : NvsFaults)

/-- `nvs_get_blob` into 16 bytes. -/
def nvsGetBlob (nvs : Nvs) : Except NvsErr Bytes :=
  match f.getBlob with
  | some e => .error e
  | none =>
    match nvs.siteKey with
    | none => .error .notFound
    | some b => if b.length > 16 then .error .invalidLength else .ok b

def leafGetSiteKey (nvs : Nvs) : Except NvsErr Bytes :=
  match f.openRead with
  | some e => .error e
  | none =>
    match f.nvsGetBlob nvs with
    | .error _ => .error .notFound
    | .ok b => if b.length ≠ 16 then .error .notFound else .ok b

/-- The entry that `leaf_set_site_key` leaves in the flash. -/
def leafSetSiteKey (key : Block) (nvs : Nvs) : Nvs :=
  match f.openWrite with
  | some _ => nvs
  | none =>
    match f.setBlob with
    | some _ => nvs
    | none =>
      match f.commit with
      | none => ⟨some key.toList⟩
      | some _ => if f.flushed then ⟨some key.toList⟩ else nvs

end NvsFaults

def devSiteKey : Block :=
  #v[0xC0, 0xFF, 0xEE, 0xC0, 0xDE, 0xCA, 0xFE, 0xBA, 0xBE, 0xDE, 0xAD, 0xBE, 0xEF, 0xFE, 0xED, 0xC0]

namespace NvsFaults

variable (f : NvsFaults)

def provisionDefaultSiteKeyIfMissing (nvs : Nvs) : Nvs :=
  match f.leafGetSiteKey nvs with
  | .ok _ => nvs
  | .error _ => f.leafSetSiteKey devSiteKey nvs

/-- The initialisation of NVS: whether the boot goes on, or `ESP_ERROR_CHECK` ends it, and the entry. -/
def flashInit (nvs : Nvs) : Bool × Nvs :=
  match f.init with
  | none => (true, nvs)
  | some e =>
    if e = .noFreePages ∨ e = .newVersionFound then
      match f.erase with
      | some _ => (false, nvs)
      | none => (f.retry.isNone, ⟨none⟩)
    else (false, nvs)

/-- The part of `app_main` that has to do with the key. -/
def boot (nvs : Nvs) : Nvs :=
  let (go, nvs) := f.flashInit nvs
  if go then f.provisionDefaultSiteKeyIfMissing nvs else nvs

/-- The provisioning step changes the entry only if there is none, and a stored key of 16 bytes is still
stored after the boot. -/
def KeepsKey (nvs : Nvs) : Prop :=
  (∀ start, f.flashInit nvs = (true, start) →
      f.provisionDefaultSiteKeyIfMissing start ≠ start → start.siteKey = none) ∧
    ∀ key, nvs.siteKey = some key → key.length = 16 → (f.boot nvs).siteKey = some key

/-- `nvs_flash_init` asks for an erase, and gets it. -/
def Erases : Prop := (f.init = some .noFreePages ∨ f.init = some .newVersionFound) ∧ f.erase = none

/-- The entry `b` is read as a key. -/
def Reads (b : Bytes) : Prop := f.openRead = none ∧ f.getBlob = none ∧ b.length = 16

/-- A key that is set gets into the flash. -/
def Writes : Prop := f.openWrite = none ∧ f.setBlob = none ∧ (f.commit = none ∨ f.flushed = true)

variable {f}

theorem leafGetSiteKey_some {b key : Bytes} :
    f.leafGetSiteKey ⟨some b⟩ = .ok key ↔ f.Reads b ∧ b = key := by
  unfold leafGetSiteKey nvsGetBlob Reads
  cases f.openRead with
  | some e => simp
  | none =>
    cases f.getBlob with
    | some e => simp
    | none =>
      dsimp only
      by_cases h : b.length > 16
      · simp only [h, ↓reduceIte, reduceCtorEq, true_and, false_iff, not_and]
        omega
      · simp only [h, ↓reduceIte, ne_eq, true_and]
        by_cases h16 : b.length = 16
        · simp [h16]
        · simp [h16]

theorem leafSetSiteKey_eq (key : Block) (nvs : Nvs) :
    (f.Writes ∧ f.leafSetSiteKey key nvs = ⟨some key.toList⟩) ∨
      (¬ f.Writes ∧ f.leafSetSiteKey key nvs = nvs) := by
  unfold leafSetSiteKey Writes
  cases f.openWrite with
  | some e => exact .inr ⟨by simp, rfl⟩
  | none =>
    cases f.setBlob with
    | some e => exact .inr ⟨by simp, rfl⟩
    | none =>
      cases f.commit with
      | none => exact .inl ⟨by simp, rfl⟩
      | some e =>
        cases hf : f.flushed with
        | true => exact .inl ⟨by simp, rfl⟩
        | false => exact .inr ⟨by simp, rfl⟩

/-- An entry is kept by the provisioning step exactly if it is read as a key, or cannot be written, or is
the key the step writes. -/
theorem provision_eq_iff (b : Bytes) : f.provisionDefaultSiteKeyIfMissing ⟨some b⟩ = ⟨some b⟩ ↔
    (f.Writes → f.Reads b ∨ b = devSiteKey.toList) := by
  unfold provisionDefaultSiteKeyIfMissing
  cases hget : f.leafGetSiteKey ⟨some b⟩ with
  | ok key => exact ⟨fun _ _ => .inl (leafGetSiteKey_some.1 hget).1, fun _ => rfl⟩
  | error e =>
    have hreads : ¬ f.Reads b := by
      intro h
      rw [leafGetSiteKey_some.2 ⟨h, rfl⟩] at hget
      cases hget
    dsimp only
    rcases leafSetSiteKey_eq (f := f) devSiteKey ⟨some b⟩ with ⟨hw, heq⟩ | ⟨hw, heq⟩
    · rw [heq]
      refine ⟨fun h _ => .inr ?_, fun h => ?_⟩
      · injection h with h
        exact (Option.some.inj h).symm
      · rw [(h hw).resolve_left hreads]
    · exact ⟨fun _ h => absurd h hw, fun _ => heq⟩

theorem flashInit_cases (nvs : Nvs) :
    (f.init = none ∧ f.flashInit nvs = (true, nvs)) ∨
      (f.Erases ∧ f.flashInit nvs = (f.retry.isNone, ⟨none⟩)) ∨
      (f.init ≠ none ∧ ¬ f.Erases ∧ f.flashInit nvs = (false, nvs)) := by
  unfold flashInit Erases
  cases f.init with
  | none => exact .inl ⟨rfl, rfl⟩
  | some e =>
    dsimp only
    by_cases he : e = .noFreePages ∨ e = .newVersionFound
    · rw [if_pos he]
      cases f.erase with
      | none => exact .inr (.inl ⟨by simpa using he, rfl⟩)
      | some e' => exact .inr (.inr ⟨by simp, by simp, rfl⟩)
    · rw [if_neg he]
      exact .inr (.inr ⟨by simp, by simpa using fun h => absurd h he, rfl⟩)

theorem Erases.init_ne_none (h : f.Erases) : f.init ≠ none := by
  rcases h.1 with h | h
  · simp [h]
  · simp [h]

/-- Without an entry the step stores the development key, if it can. -/
theorem provision_none (b : Bytes) : (f.provisionDefaultSiteKeyIfMissing ⟨none⟩).siteKey = some b ↔
    f.Writes ∧ b = devSiteKey.toList := by
  have hget : ∃ e, f.leafGetSiteKey ⟨none⟩ = .error e := by
    unfold leafGetSiteKey nvsGetBlob
    cases f.openRead with
    | some e => exact ⟨e, rfl⟩
    | none => cases f.getBlob <;> exact ⟨.notFound, rfl⟩
  obtain ⟨e, hget⟩ := hget
  unfold provisionDefaultSiteKeyIfMissing
  rw [hget]
  dsimp only
  rcases leafSetSiteKey_eq (f := f) devSiteKey ⟨none⟩ with ⟨hw, heq⟩ | ⟨hw, heq⟩
  · rw [heq]
    exact ⟨fun h => ⟨hw, (Option.some.inj h).symm⟩, fun h => congrArg some h.2.symm⟩
  · rw [heq]
    exact ⟨nofun, fun h => absurd h.1 hw⟩

variable {entry : Option Bytes}

/-- After a sound `nvs_flash_init` the boot goes on with what was stored. -/
theorem keepsKey_of_init (heq : f.flashInit ⟨entry⟩ = (true, ⟨entry⟩)) :
    f.KeepsKey ⟨entry⟩ ↔ ∀ b, entry = some b → f.Writes → f.Reads b ∨ b = devSiteKey.toList := by
  unfold KeepsKey boot
  rw [heq]
  dsimp only
  constructor
  · rintro ⟨hstart, -⟩ b rfl
    refine (provision_eq_iff b).1 ?_
    by_contra hne
    cases hstart _ rfl hne
  · intro h
    cases entry with
    | none => exact ⟨fun start hs _ => by cases hs; rfl, nofun⟩
    | some b =>
      have hkeep := (provision_eq_iff b).2 (h b rfl)
      refine ⟨fun start hs hne => ?_, fun key hkey _ => ?_⟩
      · cases hs
        exact absurd hkeep hne
      · rw [if_pos rfl, hkeep]
        exact hkey

/-- After an erase nothing is stored any more: only the development key can come back. -/
theorem keepsKey_of_erases (heq : f.flashInit ⟨entry⟩ = (f.retry.isNone, ⟨none⟩)) :
    f.KeepsKey ⟨entry⟩ ↔
      ∀ b, entry = some b → b.length = 16 → f.retry = none ∧ f.Writes ∧ b = devSiteKey.toList := by
  unfold KeepsKey boot
  rw [heq]
  dsimp only
  constructor
  · rintro ⟨-, hstored⟩ b rfl hlen
    have hb := hstored b rfl hlen
    cases hretry : f.retry with
    | none =>
      simp only [hretry, Option.isNone_none, ↓reduceIte] at hb
      exact ⟨rfl, (provision_none b).1 hb⟩
    | some e =>
      rw [hretry] at hb
      cases hb
  · intro h
    refine ⟨fun start hs _ => ?_, fun key hkey hlen => ?_⟩
    · rw [← (Prod.mk.inj hs).2]
    · obtain ⟨hretry, hw, rfl⟩ := h key hkey hlen
      simp only [hretry, Option.isNone_none, ↓reduceIte]
      exact (provision_none _).2 ⟨hw, rfl⟩

/-- Without a store the boot stops, and nothing is written. -/
theorem keepsKey_of_failed (heq : f.flashInit ⟨entry⟩ = (false, ⟨entry⟩)) : f.KeepsKey ⟨entry⟩ := by
  unfold KeepsKey boot
  rw [heq]
  refine ⟨?_, fun key hkey _ => hkey⟩
  intro start hs
  cases hs

/-- A boot keeps the key exactly if NVS is not erased with a key of 16 bytes in it, and an entry that is
there is read as a key or cannot be written. The development key may also be erased and stored again, or be
written over itself. -/
theorem keepsKey_iff (f : NvsFaults) (nvs : Nvs) : f.KeepsKey nvs ↔
    ∀ b, nvs.siteKey = some b →
      (f.Erases → b.length = 16 → f.retry = none ∧ f.Writes ∧ b = devSiteKey.toList) ∧
        (f.init = none → f.Writes → f.Reads b ∨ b = devSiteKey.toList) := by
  obtain ⟨entry⟩ := nvs
  rcases flashInit_cases (f := f) ⟨entry⟩ with ⟨hinit, heq⟩ | ⟨herase, heq⟩ | ⟨hinit, herase, heq⟩
  · rw [keepsKey_of_init heq]
    have hno : ¬ f.Erases := fun h => h.init_ne_none hinit
    exact ⟨fun h b hb => ⟨fun he => absurd he hno, fun _ => h b hb⟩, fun h b hb => (h b hb).2 hinit⟩
  · rw [keepsKey_of_erases heq]
    exact ⟨fun h b hb => ⟨fun _ => h b hb, fun hi => absurd hi herase.init_ne_none⟩,
      fun h b hb => (h b hb).1 herase⟩
  · exact ⟨fun _ b _ => ⟨fun h => absurd h herase, fun h => absurd h hinit⟩,
      fun _ => keepsKey_of_failed heq⟩

/-- No fault but one in reading the entry. -/
def getBlobFails : NvsFaults := ⟨none, none, none, none, some .other, none, none, none, false⟩

def storedKey : Block := .replicate 16 0x5A

/-- A stored key that could not be read is replaced with the development key. -/
theorem getBlobFails_replaces :
    (getBlobFails.boot ⟨some storedKey.toList⟩).siteKey = some devSiteKey.toList ∧
      ¬ getBlobFails.KeepsKey ⟨some storedKey.toList⟩ := by
  refine ⟨rfl, fun h => ?_⟩
  have hkey := h.2 storedKey.toList rfl rfl
  revert hkey
  decide

end NvsFaults

end LeafReader
