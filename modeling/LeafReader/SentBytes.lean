import LeafReader.LinkView
import LeafReader.PersonalizeMem
import LeafReader.Recovery

/-!
# What `leaf_personalize` sends of its stack

Two runs that differ only in the memory their arrays start with send the same APDUs up to the write of
the credential. That one sends `payload` whole, of which 18 bytes have been written.
-/

namespace LeafReader

variable {σ : Type} (aes : Aes) (nfc : Nfc σ)

/-- The exchanges of a run, in order. -/
def exchanges (g : Garbage UInt8) (site : Option Block) (uid : Bytes) (cred : Credential)
    (rndA1 rndA2 rndA3 : Block) (w : World σ) : Option (List (Bytes × LinkResult)) :=
  match leafPersonalizeMem aes (recorded nfc) g site uid cred rndA1 rndA2 rndA3 w.record with
  | .ok c => some c.world.link.2
  | .error _ => none

/-- The run comes to the write of the credential. -/
def ReachesWrite (site : Option Block) (uid : Bytes) (rndA1 rndA2 rndA3 : Block) (w : World σ) : Prop :=
  ∃ k, site = some k ∧
    ∃ c, runFlow aes nfc (setupOps aes k uid rndA1 rndA2 rndA3) w = .ok c ∧ c.ret = .ok

/-! ### The last exchange -/

/-- The credential file as it is sent. -/
def sentPayload (g : Garbage UInt8) (site : Block) (uid : Bytes) (cred : Credential) : Bytes :=
  signedCredential aes site uid cred ++ (payloadMem g).toList.drop 18

def writeApdu (g : Garbage UInt8) (site : Block) (uid : Bytes) (cred : Credential) (h : Host) : Bytes :=
  apdu 0x3D (cmacParams aes h 0x3D
    (fileHeader leafFileNo 0 (sentPayload aes g site uid cred).length.toUInt32)
    (sentPayload aes g site uid cred))

@[simp] theorem length_sentPayload (g : Garbage UInt8) (site : Block) (uid : Bytes) (cred : Credential) :
    (sentPayload aes g site uid cred).length = 32 := by
  simp [sentPayload]

theorem sentPayload_eq_iff {g g' : Garbage UInt8} (site : Block) (uid : Bytes) (cred : Credential) :
    sentPayload aes g site uid cred = sentPayload aes g' site uid cred ↔
      ∀ i, 18 ≤ i → i < 32 → g [0] i = g' [0] i := by
  have hget (g : Garbage UInt8) (i : Nat) (hi : i < 14) :
      ((payloadMem g).toList.drop 18)[i]? = some (g [0] (18 + i)) := by
    rw [List.getElem?_drop]
    simp [payloadMem, show 18 + i < 32 by omega]
  rw [sentPayload, sentPayload, List.append_cancel_left_eq]
  constructor
  · intro h i h18 h32
    have hi := congrArg (·[i - 18]?) h
    simp only [hget _ (i - 18) (by omega), Option.some.injEq, Nat.add_sub_cancel' h18] at hi
    exact hi
  · intro h
    refine List.ext_getElem? fun i => ?_
    by_cases hi : i < 14
    · rw [hget g i hi, hget g' i hi, h (18 + i) (by omega) (by omega)]
    · rw [List.getElem?_eq_none (by simp; omega), List.getElem?_eq_none (by simp; omega)]

/-- The MAC comes after the payload, so the payload can be read off the APDU. -/
theorem writeApdu_eq_iff {g g' : Garbage UInt8} (site : Block) (uid : Bytes) (cred : Credential)
    (h : Host) :
    writeApdu aes g site uid cred h = writeApdu aes g' site uid cred h ↔
      ∀ i, 18 ≤ i → i < 32 → g [0] i = g' [0] i := by
  rw [← sentPayload_eq_iff aes site uid cred]
  constructor
  · intro heq
    have hparams := congrArg (fun a => ((parseApdu a).2.drop 7).take 32) heq
    have htake (g : Garbage UInt8) :
        ((parseApdu (writeApdu aes g site uid cred h)).2.drop 7).take 32 =
          sentPayload aes g site uid cred := by
      rw [writeApdu, parseApdu_apdu, cmacParams, List.append_assoc,
        List.drop_left' (length_fileHeader ..), List.take_left' (by simp)]
    simpa only [htake] using hparams
  · intro heq
    rw [writeApdu, writeApdu, heq]

/-! ### A run -/

section

variable {aes nfc} {site : Block} {uid : Bytes} {rndA1 rndA2 rndA3 : Block} {w : World σ}
  {c : Call (σ × List (Bytes × LinkResult)) EspErr}

theorem setup_total (aes : Aes) (nfc : Nfc σ) (site : Block) (uid : Bytes)
    (rndA1 rndA2 rndA3 : Block) (w : World σ) :
    ∃ c, runFlow aes nfc (setupOps aes site uid rndA1 rndA2 rndA3) w = .ok c := by
  refine runFlow_total _ (fun f hf s r => ?_) w
  simp only [setupOps, List.mem_cons, List.not_mem_nil, or_false] at hf
  rcases hf with rfl | rfl | rfl | rfl | rfl | rfl | rfl | rfl | rfl | rfl <;> simp [Op.Overruns]

/-- The last operation before the write is a handshake. -/
theorem setup_authenticated
    (hc : runFlow aes (recorded nfc) (setupOps aes site uid rndA1 rndA2 rndA3) w.record = .ok c)
    (hret : c.ret = .ok) : c.world.host.session.authenticated = true := by
  have hsplit : setupOps aes site uid rndA1 rndA2 rndA3 =
      (setupOps aes site uid rndA1 rndA2 rndA3).take 9 ++
        [⟨.authEv2First 0 (masterKey aes site uid) rndA3, true⟩] := rfl
  rw [hsplit, runFlow_append (by simp) _ (by simp [setupOps])] at hc
  obtain ⟨c₁, -, hc⟩ := bind_eq_ok hc
  split at hc
  · cases hc
    cases hret
  · cases hc
    exact desfireAuthEv2First_authenticated aes _ 0 _ rndA3 c₁.world hret

theorem setup_view
    (hc : runFlow aes (recorded nfc) (setupOps aes site uid rndA1 rndA2 rndA3) w.record = .ok c) :
    runFlow aes nfc (setupOps aes site uid rndA1 rndA2 rndA3) w = .ok (c.view Prod.fst) := by
  have h := runFlow_view aes (recorded_views nfc) (setupOps aes site uid rndA1 rndA2 rndA3) w.record
  rw [hc] at h
  exact h

theorem reachesWrite_iff
    (hc : runFlow aes (recorded nfc) (setupOps aes site uid rndA1 rndA2 rndA3) w.record = .ok c) :
    ReachesWrite aes nfc (some site) uid rndA1 rndA2 rndA3 w ↔ c.ret = .ok := by
  have hview := setup_view hc
  constructor
  · rintro ⟨k, hk, c', hc', hret⟩
    cases hk
    cases hview.symm.trans hc'
    exact hret
  · intro hret
    exact ⟨site, rfl, _, hview, hret⟩

theorem exchanges_stopped
    (hc : runFlow aes (recorded nfc) (setupOps aes site uid rndA1 rndA2 rndA3) w.record = .ok c)
    (hret : c.ret ≠ .ok) (g : Garbage UInt8) (cred : Credential) :
    exchanges aes nfc g (some site) uid cred rndA1 rndA2 rndA3 w = some c.world.link.2 := by
  rw [exchanges, leafPersonalizeMem_eq, leafPersonalize_eq, personalizeOps,
    runFlow_append (by simp) _ (by simp [setupOps]), hc]
  simp only [bind, Except.bind, if_pos hret]
  rfl

/-- A run that comes to the write sends the payload in one more exchange. -/
theorem exchanges_written
    (hc : runFlow aes (recorded nfc) (setupOps aes site uid rndA1 rndA2 rndA3) w.record = .ok c)
    (hret : c.ret = .ok) (g : Garbage UInt8) (cred : Credential) :
    exchanges aes nfc g (some site) uid cred rndA1 rndA2 rndA3 w =
      some (c.world.link.2 ++ [(writeApdu aes g site uid cred c.world.host,
        (nfc c.world.link.1 (writeApdu aes g site uid cred c.world.host)).1)]) := by
  have hauth := setup_authenticated hc hret
  rw [exchanges, leafPersonalizeMem_eq, leafPersonalize_eq, personalizeOps,
    runFlow_append (by simp) _ (by simp [setupOps]), hc]
  simp only [bind, Except.bind, hret, ne_eq, not_true_eq_false, ↓reduceIte, runFlow, Op.run]
  rw [← sentPayload, desfireWriteData_cmac_of_auth _ _ hauth]
  set header := fileHeader leafFileNo 0 (sentPayload aes g site uid cred).length.toUInt32
  have hfit : header.length + (sentPayload aes g site uid cred).length ≤ 247 := by simp [header]
  obtain ⟨c', hc', -, -, hlink⟩ : Steps c.world _ _ (cmacAppendAndSend aes (recorded nfc) 0x3D header
    (sentPayload aes g site uid cred) .null 0 c.world) := cmac_null_steps aes _ c.world hfit
  rw [hc']
  exact congrArg (fun l => some l.2) hlink

end

/-- Two runs that differ only in the memory they start with, on one link: a fixed list of answers, or a
card. They send the same APDUs exactly when the 14 bytes of `payload` that nothing writes are the same,
or the run ends before it writes the credential. -/
theorem sent_eq_iff (g g' : Garbage UInt8) (site : Option Block) (uid : Bytes) (cred : Credential)
    (rndA1 rndA2 rndA3 : Block) (w : World σ) :
    ∃ e e', exchanges aes nfc g site uid cred rndA1 rndA2 rndA3 w = some e ∧
      exchanges aes nfc g' site uid cred rndA1 rndA2 rndA3 w = some e' ∧
      (e.map Prod.fst = e'.map Prod.fst ↔ (∀ i, 18 ≤ i → i < 32 → g [0] i = g' [0] i) ∨
        ¬ ReachesWrite aes nfc site uid rndA1 rndA2 rndA3 w) := by
  cases site with
  | none =>
    refine ⟨[], [], rfl, rfl, iff_of_true rfl (.inr ?_)⟩
    rintro ⟨k, hk, -⟩
    cases hk
  | some site =>
    obtain ⟨c, hc⟩ := setup_total aes (recorded nfc) site uid rndA1 rndA2 rndA3 w.record
    by_cases hret : c.ret = .ok
    · refine ⟨_, _, exchanges_written hc hret g cred, exchanges_written hc hret g' cred, ?_⟩
      rw [List.map_append, List.map_append, List.append_cancel_left_eq, reachesWrite_iff hc]
      simp only [List.map_cons, List.map_nil, List.cons.injEq, and_true, hret, not_true_eq_false,
        or_false]
      exact writeApdu_eq_iff aes site uid cred c.world.host
    · refine ⟨_, _, exchanges_stopped hc hret g cred, exchanges_stopped hc hret g' cred,
        iff_of_true rfl (.inr ?_)⟩
      rwa [reachesWrite_iff hc]

/-! ### On a card -/

/-- A card whose PICC key is the default one answers every run alike, and is sent the whole payload. -/
theorem exchanges_bare (site : Block) (uid : Bytes) (cred : Credential) (rndA1 rndA2 rndA3 : Block)
    {w : World BareCard} (hw : w.link.FactoryPicc) (g g' : Garbage UInt8) :
    ∃ e e', exchanges aes (BareCard.respond aes) g (some site) uid cred rndA1 rndA2 rndA3 w = some e ∧
      exchanges aes (BareCard.respond aes) g' (some site) uid cred rndA1 rndA2 rndA3 w = some e' ∧
      e.map Prod.snd = e'.map Prod.snd ∧
      (e.map Prod.fst = e'.map Prod.fst → ∀ i, 18 ≤ i → i < 32 → g [0] i = g' [0] i) := by
  obtain ⟨c, hc⟩ := setup_total aes (recorded (BareCard.respond aes)) site uid rndA1 rndA2 rndA3 w.record
  obtain ⟨c₁, hc₁, hret, hst, hauth⟩ := setupOps_succeed aes site uid rndA1 rndA2 rndA3 w hw
  obtain rfl : c.view Prod.fst = c₁ := Except.ok.inj ((setup_view hc).symm.trans hc₁)
  refine ⟨_, _, exchanges_written hc hret g cred, exchanges_written hc hret g' cred, ?_, ?_⟩
  · have hans (g : Garbage UInt8) :
        (c.world.link.1.respond aes (writeApdu aes g site uid cred c.world.host)).1 = .answer 0x00 [] :=
      congrArg Prod.fst (BareCard.respond_cmac aes hauth (by decide)
        (hst.execute_write (by simp) (length_sentPayload aes g site uid cred)))
    simp only [List.map_append, List.map_cons, List.map_nil, hans]
  · rw [List.map_append, List.map_append, List.append_cancel_left_eq]
    simp only [List.map_cons, List.map_nil, List.cons.injEq, and_true]
    exact (writeApdu_eq_iff aes site uid cred c.world.host).1

/-- A card from the factory, answering the same in both runs, is sent other bytes when the memory held
ones instead of zeroes. -/
theorem sent_depends_on_memory :
    ∃ e e', exchanges Aes128.aes128 (BareCard.respond Aes128.aes128) (fun _ _ => 0) (some .zero)
        (.replicate 7 0x04) ⟨1, 2, 3⟩ .zero .zero .zero
        ⟨desfireInit, bareFactoryCard (.replicate 7 0x04) fun _ => (.zero, .replicate 4 0)⟩ = some e ∧
      exchanges Aes128.aes128 (BareCard.respond Aes128.aes128) (fun _ _ => 1) (some .zero)
        (.replicate 7 0x04) ⟨1, 2, 3⟩ .zero .zero .zero
        ⟨desfireInit, bareFactoryCard (.replicate 7 0x04) fun _ => (.zero, .replicate 4 0)⟩ = some e' ∧
      e.map Prod.snd = e'.map Prod.snd ∧ e.map Prod.fst ≠ e'.map Prod.fst := by
  obtain ⟨e, e', he, he', hans, hsent⟩ := exchanges_bare Aes128.aes128 .zero (.replicate 7 0x04)
    ⟨1, 2, 3⟩ .zero .zero .zero
    (w := ⟨desfireInit, bareFactoryCard (.replicate 7 0x04) fun _ => (.zero, .replicate 4 0)⟩)
    ⟨rfl, rfl⟩ (fun _ _ => 0) (fun _ _ => 1)
  refine ⟨e, e', he, he', hans, fun heq => ?_⟩
  exact absurd (hsent heq 18 (Nat.le_refl 18) (by decide)) (by decide)

end LeafReader
