import LeafReader.Aes128
import LeafReader.LinkView
import LeafReader.CardSpec

/-!
# What WriteData sends

`desfire_write_data` of every file, offset, length and mode: the call is refused before anything is
sent, or one request goes out that a card reads back as it was meant. The exceptions are offsets that
do not fit the three bytes of the header, and lengths near the limits of the arrays.
-/

namespace LeafReader

variable {σ : Type} (aes : Aes) (nfc : Nfc σ)

/-- The data of a WriteData request, without MAC, encryption, checksum and padding. -/
def writePayload (s : Session) (comm : CommMode) (params : Bytes) : Option Bytes :=
  let body := params.drop 7
  match comm with
  | .plain => some body
  | .cmac => some (body.take (body.length - 8))
  | .encrypted =>
    s.unseal aes 0x3D (params.take 7) (body.take (body.length - 8)) (ofLe24 (params.drop 4))

/-- `a` is a WriteData APDU that asks for `data` to be written at `offset` of the file. -/
structure Carries (s : Session) (fileNo : UInt8) (offset length : UInt32) (comm : CommMode)
    (data : Bytes) (a : Bytes) : Prop where
  form : a = apdu 0x3D (parseApdu a).2
  short : (parseApdu a).2.length ≤ 255
  file : (parseApdu a).2.getD 0 0 = fileNo
  at_offset : ofLe24 ((parseApdu a).2.drop 1) = offset.toNat
  of_length : ofLe24 ((parseApdu a).2.drop 4) = length.toNat
  payload : writePayload aes s comm (parseApdu a).2 = some data

/-- No array is overrun, and the call sends nothing and fails, or sends one faithful request. -/
def WriteFaithful (fileNo : UInt8) (offset length : UInt32) (comm : CommMode)
    (data : Vector UInt8 length.toNat) (w : World σ) : Prop :=
  ∃ c, desfireWriteData aes (recorded nfc) fileNo offset comm data.toList w.record = .ok c ∧
    (c.ret ≠ .ok ∧ c.world.link.2 = [] ∨
      ∃ a r, c.world.link.2 = [(a, r)] ∧
        Carries aes w.host.session fileNo offset length comm data.toList a)

/-- The limits of the three paths: what is sent has a 24-bit offset, and the length is not one of
those that pass a check and overrun an array. -/
def WriteFits (s : Session) (offset length : UInt32) : CommMode → Prop
  | .plain => (length.toNat ≤ 248 → offset.toNat < 2 ^ 24) ∧ length.toNat < 2 ^ 32 - 7
  | .cmac => s.authenticated = true →
    (length.toNat ≤ 240 → offset.toNat < 2 ^ 24) ∧
      ¬ (242 ≤ length.toNat ∧ length.toNat ≤ 249) ∧ length.toNat < 2 ^ 32 - 7
  | .encrypted => s.authenticated = true →
    (length.toNat ≤ 236 → offset.toNat < 2 ^ 24) ∧ length.toNat < 2 ^ 32 - 8

/-! ### Requests that are sent -/

section Sent

variable {h : Host} {fileNo : UInt8} {offset length : UInt32} {comm : CommMode} {data : Bytes}
  (hlen : data.length = length.toNat)

include hlen in
theorem toUInt32_length : data.length.toUInt32 = length := by
  rw [hlen]
  simp

/-- A header with `body` behind it is faithful when the offset fits and the body holds the data. -/
theorem carries_iff {body : Bytes} (h248 : body.length ≤ 248) (hl : length.toNat < 2 ^ 24)
    (hp : writePayload aes h.session comm (fileHeader fileNo offset length ++ body) = some data) :
    Carries aes h.session fileNo offset length comm data
        (apdu 0x3D (fileHeader fileNo offset length ++ body)) ↔ offset.toNat < 2 ^ 24 := by
  constructor
  · intro hc
    have ho := hc.at_offset
    rw [parseApdu_apdu, ofLe24_fileHeader_offset] at ho
    rw [← ho]
    exact Nat.mod_lt _ (by decide)
  · intro ho
    constructor
    · rw [parseApdu_apdu]
    · rw [parseApdu_apdu]
      simp
      omega
    · rw [parseApdu_apdu]
      exact getD_fileHeader ..
    · rw [parseApdu_apdu, ofLe24_fileHeader_offset, Nat.mod_eq_of_lt ho]
    · rw [parseApdu_apdu, ofLe24_fileHeader_length, Nat.mod_eq_of_lt hl]
    · rw [parseApdu_apdu]
      exact hp

include hlen

/-- Behind the header stand cipher and MAC, out of which the payload is read. -/
theorem encrypted_request (hd : data.length ≤ 236) :
    ∃ body, encParams aes h 0x3D (fileHeader fileNo offset length)
        (encPlain 0x3D (fileHeader fileNo offset length) data) = fileHeader fileNo offset length ++ body ∧
      body.length ≤ 248 ∧
      writePayload aes h.session .encrypted (fileHeader fileNo offset length ++ body) = some data := by
  set hdr := fileHeader fileNo offset length with hhdr
  set cipher := encCipher aes h.session (encPlain 0x3D hdr data) with hcipher
  set mac := cmacSession aes h (macHead 0x3D h.session ++ hdr ++ cipher) with hmac
  have hmod : (encPlain 0x3D hdr data).length % 16 = 0 := by
    rw [length_encPlain _ _ (by omega)]
    exact pad16_mod _
  have hclen : cipher.length ≤ 240 := by
    rw [hcipher, length_encCipher aes _ hmod, length_encPlain _ _ (by omega)]
    unfold pad16
    omega
  refine ⟨cipher ++ mac, by rw [encParams, List.append_assoc], by simp [hmac]; omega, ?_⟩
  have htake : (hdr ++ (cipher ++ mac)).take 7 = hdr := List.take_left' (length_fileHeader ..)
  have hdrop : (hdr ++ (cipher ++ mac)).drop 7 = cipher ++ mac := List.drop_left' (length_fileHeader ..)
  have hn : ofLe24 ((hdr ++ (cipher ++ mac)).drop 4) = data.length := by
    rw [hhdr, ofLe24_fileHeader_length, Nat.mod_eq_of_lt (by omega), hlen]
  simp only [writePayload, htake, hdrop, hn]
  rw [List.length_append, hmac, length_cmacSession, Nat.add_sub_cancel, List.take_left]
  exact unseal_encCipher aes h.session 0x3D hdr (by omega)

/-- The request of `desfire_write_data` is the header and a body that the payload is read out of. -/
theorem write_request {cmd : UInt8} {params : Bytes}
    (hq : (Op.writeData fileNo offset comm data).request aes h = some (cmd, params)) :
    ∃ body, cmd = 0x3D ∧ params = fileHeader fileNo offset length ++ body ∧ body.length ≤ 248 ∧
      length.toNat ≤ 248 ∧ writePayload aes h.session comm params = some data := by
  have hl := toUInt32_length hlen
  simp only [Op.request, hl] at hq
  cases comm with
  | plain =>
    simp only [Option.ite_none_right_eq_some, Option.some.injEq, Prod.mk.injEq] at hq
    obtain ⟨hd, rfl, rfl⟩ := hq
    exact ⟨data, rfl, rfl, hd, by omega, rfl⟩
  | cmac =>
    simp only [Option.ite_none_right_eq_some, Option.some.injEq, Prod.mk.injEq] at hq
    obtain ⟨⟨-, hd⟩, rfl, rfl⟩ := hq
    refine ⟨data ++ cmacSession aes h (macHead 0x3D h.session ++ fileHeader fileNo offset length ++ data),
      rfl, by simp [cmacParams], by simp; omega, by omega, ?_⟩
    have hdrop : (cmacParams aes h 0x3D (fileHeader fileNo offset length) data).drop 7 =
        data ++ cmacSession aes h
          (macHead 0x3D h.session ++ fileHeader fileNo offset length ++ data) := by
      rw [cmacParams, List.append_assoc, List.drop_left' (length_fileHeader ..)]
    simp only [writePayload, hdrop]
    simp
  | encrypted =>
    simp only [Option.ite_none_right_eq_some, Option.some.injEq, Prod.mk.injEq] at hq
    obtain ⟨⟨-, hd⟩, rfl, rfl⟩ := hq
    obtain ⟨body, hbody, h248, hpayload⟩ := encrypted_request aes hlen hd
    exact ⟨body, rfl, hbody, h248, by omega, by rwa [hbody]⟩

/-- Where a request is sent, its length is far from the limits. -/
theorem writeFits_of_request {p : UInt8 × Bytes}
    (hq : (Op.writeData fileNo offset comm data).request aes h = some p) (r : LinkResult) :
    ¬ (Op.writeData fileNo offset comm data).Overruns aes h r ∧
      (WriteFits h.session offset length comm ↔ offset.toNat < 2 ^ 24) := by
  cases comm <;> simp only [Op.request, Option.ite_none_right_eq_some] at hq
  · simp only [Op.Overruns, WriteFits]
    omega
  · simp only [Op.Overruns, WriteFits, hq.1.1, true_and, forall_const]
    omega
  · simp only [Op.Overruns, WriteFits, hq.1.1, true_and, forall_const]
    omega

/-- Where none is sent, the limits keep the call inside its arrays, and nothing less does. -/
theorem writeFits_of_no_request
    (hq : (Op.writeData fileNo offset comm data).request aes h = none) (r : LinkResult) :
    WriteFits h.session offset length comm ↔
      ¬ (Op.writeData fileNo offset comm data).Overruns aes h r := by
  have h32 := length.toNat_lt
  cases comm <;> simp only [Op.request, ite_eq_right_iff, reduceCtorEq, imp_false] at hq
  · simp only [Op.Overruns, WriteFits, sizeT]
    omega
  · cases hauth : h.session.authenticated with
    | false => simp [Op.Overruns, WriteFits, hauth]
    | true =>
      simp only [hauth, true_and] at hq
      simp only [Op.Overruns, WriteFits, hauth, true_and, forall_const, sizeT]
      omega
  · cases hauth : h.session.authenticated with
    | false => simp [Op.Overruns, WriteFits, hauth]
    | true =>
      simp only [hauth, true_and] at hq
      simp only [Op.Overruns, WriteFits, hauth, true_and, forall_const, sizeT]
      omega

end Sent

/-- Every write is faithful or refused if and only if its offset and length are within the limits. -/
theorem writeFaithful_iff (fileNo : UInt8) (offset length : UInt32) (comm : CommMode)
    (data : Vector UInt8 length.toNat) (w : World σ) :
    WriteFaithful aes nfc fileNo offset length comm data w ↔
      WriteFits w.host.session offset length comm := by
  have hlen : data.toList.length = length.toNat := by simp
  cases hq : (Op.writeData fileNo offset comm data.toList).request aes w.host with
  | none =>
    have hfits := writeFits_of_no_request aes hlen hq (.error .fail)
    by_cases hover : (Op.writeData fileNo offset comm data.toList).Overruns aes w.host (.error .fail)
    · obtain ⟨f, hf⟩ := Op.run_of_overruns aes (recorded nfc) _ w.record
        (fun cmd params hq' => by simp [show w.record.host = w.host from rfl, hq] at hq') hover
      rw [hfits]
      refine iff_of_false ?_ (not_not.2 hover)
      rintro ⟨c, hc, -⟩
      rw [show desfireWriteData aes (recorded nfc) fileNo offset comm data.toList w.record = .error f
        from hf] at hc
      cases hc
    · obtain ⟨c, hc, hret, hw⟩ :=
        Op.run_of_no_request aes (recorded nfc) _ w.record hq (.error .fail) hover
      refine iff_of_true ⟨c, hc, .inl ⟨hret, ?_⟩⟩ (hfits.2 hover)
      rw [hw]
      rfl
  | some p =>
    obtain ⟨cmd, params⟩ := p
    obtain ⟨body, rfl, rfl, h248, hl, hp⟩ := write_request aes hlen hq
    have ⟨hover, hfits⟩ := writeFits_of_request aes hlen hq
      (recorded nfc w.record.link (apdu 0x3D (fileHeader fileNo offset length ++ body))).1
    obtain ⟨c, hc, -, -, hlink⟩ := Op.run_of_request aes (recorded nfc) _ id w.record hq hover
    have hsent : c.world.link.2 = [(apdu 0x3D (fileHeader fileNo offset length ++ body),
        (nfc w.link (apdu 0x3D (fileHeader fileNo offset length ++ body))).1)] := by
      rw [hlink]
      rfl
    have hcarries := carries_iff aes h248 (by omega) hp
    rw [hfits, ← hcarries]
    constructor
    · rintro ⟨c', hc', h⟩
      obtain rfl : c = c' := by
        rw [show desfireWriteData aes (recorded nfc) fileNo offset comm data.toList w.record = .ok c
          from hc] at hc'
        exact Except.ok.inj hc'
      rw [hsent] at h
      rcases h with ⟨-, h⟩ | ⟨a, r, h, hcarries⟩
      · cases h
      · cases h
        exact hcarries
    · intro h
      exact ⟨c, hc, .inr ⟨_, _, hsent, h⟩⟩

/-- 242 bytes in CMAC mode, which with the header pass the check at 256 bytes. -/
theorem not_writeFaithful_cmac :
    ¬ WriteFaithful Aes128.aes128 (fun (s : Unit) _ => (.error .timeout, s)) 1 0 242 .cmac
      (Vector.replicate 242 0) ⟨zeroHost, ()⟩ := by
  have hl : (Vector.replicate 242 (0 : UInt8)).toList.length = 242 := Vector.length_toList
  rintro ⟨c, hc, -⟩
  rw [desfireWriteData_cmac_of_auth _ _ rfl,
    cmacAppendAndSend_overrun _ _ _ _ _ (by rw [hl, length_fileHeader]; decide)
      (by rw [hl, length_fileHeader]; decide)] at hc
  cases hc

end LeafReader
