import LeafReader.CardAuth
import LeafReader.Aes128

/-!
# IVs inside a session

`encryptions` is what the code does: the IV input block and the plaintext of every CBC encryption of
a run, up to the end of the session. `timeline` is read off the arguments of the run alone: each
plaintext, with the number of answers counted before it. The IVs are fresh exactly when two different
plaintexts are never a multiple of 65536 counted answers apart (`ivFresh_iff`).
-/

namespace LeafReader

/-- A link that gives the results of a script, in order. -/
def scripted : Nfc (List LinkResult) := fun rs _ => (rs.headD (.error .timeout), rs.tail)

abbrev ScriptedOp := Op × List LinkResult

/-! ### Encryptions of a run -/

/-- IV input block and plaintext of the CBC encryption that `desfire_enc_send` or
`desfire_change_key` performs; `desfire_enc_send` encrypts before it checks the size of the request.
-/
def Op.encryption (s : Session) : Op → Option (Block × Bytes)
  | .writeData fileNo offset .encrypted data =>
    if s.authenticated then
      match encSendPlain 0x3D (fileHeader fileNo offset data.length.toUInt32) data with
      | .error _ => none
      | .ok plain => if plain.length = 0 then none else some (s.ivInput 0xA5 0x5A, plain)
    else none
  | .changeKey keyNo old new ver =>
    let plain := changeKeyPlain (keyNo == s.keyNo) keyNo old new ver
    if s.authenticated ∧ plain.length ≠ 0 then some (s.ivInput 0xA5 0x5A, plain) else none
  | _ => none

/-- The session goes on: it is still marked as live, and no handshake has replaced it. -/
def Op.goesOn (c : Call (List LinkResult) EspErr) : Op → Bool
  | .authEv2First .. => c.world.host.session.authenticated && c.ret ≠ .ok
  | _ => c.world.host.session.authenticated

/-- The encryptions of the run of `as` from `h`, up to the end of the session. A call that overruns
an array ends the run. -/
def encryptions (aes : Aes) : Host → List ScriptedOp → List (Block × Bytes)
  | _, [] => []
  | h, (op, rs) :: as =>
    (op.encryption h.session).toList ++
      match op.run aes scripted ⟨h, rs⟩ with
      | .error _ => []
      | .ok c => if op.goesOn c then encryptions aes c.world.host as else []

/-- Different plaintexts are encrypted under different IV input blocks. -/
def IvFresh (l : List (Block × Bytes)) : Prop := l.Pairwise fun a b => a.2 ≠ b.2 → a.1 ≠ b.1

/-! ### The encryptions of the code -/

section Encrypts

variable {σ : Type} (aes : Aes) (nfc : Nfc σ)

/-- `desfire_enc_send` from the ciphertext on. -/
def encSendCipher (cmd : UInt8) (header cipher : Bytes) (w : World σ) :
    Except Fault (Call σ (Option UInt8)) := do
  if 7 + header.length + cipher.length > 263 then return ⟨none, .null, w⟩
  let mac8 := cmacSession aes w.host (macHead cmd w.host.session ++ header ++ cipher)
  if header.length + cipher.length + 8 > 256 then return ⟨none, .null, w⟩
  encSendTail aes .null (desfireXfer nfc cmd (header ++ cipher ++ mac8) (.buf 64) 64 w)

/-- `desfire_change_key` from the ciphertext on. -/
def changeKeyCipher (keyNo : UInt8) (cipher : Bytes) (w : World σ) : Call σ EspErr :=
  let mac8 := cmacSession aes w.host (macHead 0xC4 w.host.session ++ [keyNo] ++ cipher)
  changeKeyTail aes (keyNo == w.host.session.keyNo)
    (desfireXfer nfc 0xC4 ([keyNo] ++ cipher ++ mac8) (.buf 16) 16 w)

variable {w : World σ} {b : Block} {plain : Bytes}

/-- An encrypted write continues with that plaintext, chained from `E` of that block. -/
theorem writeData_encrypts {fileNo : UInt8} {offset : UInt32} {data : Bytes}
    (he : (Op.writeData fileNo offset .encrypted data).encryption w.host.session = some (b, plain)) :
    (Op.writeData fileNo offset .encrypted data).run aes nfc w =
      (encSendCipher aes nfc 0x3D (fileHeader fileNo offset data.length.toUInt32)
        (cardEncrypt aes w.host.session.kSesAuthEnc (aes.enc w.host.session.kSesAuthEnc b) plain) w).map
          ofStatus := by
  simp only [Op.encryption] at he
  split at he
  · rename_i hauth
    cases hp : encSendPlain 0x3D (fileHeader fileNo offset data.length.toUInt32) data with
    | error f => simp [hp] at he
    | ok p =>
      simp only [hp, Option.ite_none_left_eq_some, Option.some.injEq, Prod.mk.injEq] at he
      obtain ⟨hne, rfl, rfl⟩ := he
      rw [Op.run, desfireWriteData_encrypted_of_auth _ _ hauth, desfireEncSend,
        hauth, hp, desfireEncIv_ecb]
      simp only [Bool.not_true, Bool.false_eq_true, ↓reduceIte, bind, Except.bind, hne,
        desfireAesCbcEncrypt_eq]
      rfl
  · cases he

theorem changeKey_encrypts {keyNo : UInt8} {old new : Block} {ver : UInt8}
    (he : (Op.changeKey keyNo old new ver).encryption w.host.session = some (b, plain)) :
    (Op.changeKey keyNo old new ver).run aes nfc w =
      .ok (changeKeyCipher aes nfc keyNo
        (cardEncrypt aes w.host.session.kSesAuthEnc (aes.enc w.host.session.kSesAuthEnc b) plain) w) := by
  simp only [Op.encryption, Option.ite_none_right_eq_some, Option.some.injEq, Prod.mk.injEq] at he
  obtain ⟨⟨hauth, hne⟩, rfl, rfl⟩ := he
  rw [Op.run, desfireChangeKey, hauth, desfireEncIv_ecb]
  simp only [Bool.not_true, Bool.false_eq_true, ↓reduceIte, hne, desfireAesCbcEncrypt_eq]
  rfl

end Encrypts

/-! ### The same, read off the arguments -/

def Op.plaintext (keyNo : UInt8) : Op → Option Bytes
  | .writeData fileNo offset .encrypted data =>
    if data.length ≤ 249 then
      some (encPlain 0x3D (fileHeader fileNo offset data.length.toUInt32) data)
    else none
  | .changeKey k old new ver => some (changeKeyPlain (k == keyNo) k old new ver)
  | _ => none

def Op.counted (keyNo : UInt8) (r : LinkResult) : Op → Bool
  | .formatPicc | .createApplication .. | .createStdDataFile .. => (r.accept [0x00, 0xAF] 0).isSome
  | .changeKey k _ _ _ => k ≠ keyNo && (r.accept [0x00] 16).isSome
  | .readData _ _ length comm _ outBuf =>
    match comm with
    | .plain => false
    | .cmac => (r.accept [0x00, 0xAF] outBuf).isSome
    | .encrypted =>
      length ≠ 0 && decide (length.toNat ≤ outBuf) && (r.accept [0x00] 280).any (8 ≤ ·.2.length)
  | .writeData _ _ comm data =>
    match comm with
    | .plain => false
    | .cmac => decide (data.length ≤ 240) && (r.accept [0x00, 0xAF] 0).isSome
    | .encrypted => decide (data.length ≤ 236) && (r.accept [0x00] 64).isSome
  | .getUid _ => (r.accept [0x00] 280).any (8 ≤ ·.2.length)
  | .selectApplication _ | .authEv2First .. => false

/-- The results end the session of `h`: a select or a change of its own key is answered by success,
a handshake completes, or the call overruns an array. -/
def Op.ends (aes : Aes) (h : Host) (rs : List LinkResult) (op : Op) : Bool :=
  let r := rs.headD (.error .timeout)
  match op with
  | .selectApplication _ => (r.accept [0x00] 0).isSome
  | .changeKey k _ _ _ => k = h.session.keyNo && (r.accept [0x00] 16).isSome
  | .authEv2First _ key rndA =>
    (authReply1 r).any fun e => (authReply2 aes key rndA e (rs.tail.headD (.error .timeout))).isSome
  | op => decide (op.Overruns aes h r)

def Session.after (s : Session) (n : Nat) : Session := { s with cmdCtr := s.cmdCtr + n.toUInt16 }

/-- `h` with `n` more answers counted. -/
def Host.after (h : Host) (n : Nat) : Host := { h with session := h.session.after n }

/-- Each plaintext of the session, with the number of answers counted before it. -/
def timeline (aes : Aes) (h : Host) : Nat → List ScriptedOp → List (Nat × Bytes)
  | _, [] => []
  | n, (op, rs) :: as =>
    (op.plaintext h.session.keyNo).toList.map (n, ·) ++
      if op.ends aes (h.after n) rs then []
      else
        timeline aes h
          (if op.counted h.session.keyNo (rs.headD (.error .timeout)) then n + 1 else n) as

/-! ### One step -/

theorem Session.after_zero (s : Session) : s.after 0 = s := by simp [after]

theorem Session.after_succ (s : Session) (n : Nat) : s.after (n + 1) = (s.after n).bump := by
  simp only [after, bump, Session.mk.injEq, true_and, and_true]
  rw [UInt16.add_assoc]
  congr 1
  simp

theorem Op.encryption_eq (op : Op) {s : Session} (hauth : s.authenticated = true) :
    op.encryption s = (op.plaintext s.keyNo).map (s.ivInput 0xA5 0x5A, ·) := by
  cases op with
  | writeData fileNo offset comm data =>
    cases comm with
    | plain | cmac => rfl
    | encrypted =>
      simp only [encryption, plaintext, hauth, ↓reduceIte]
      by_cases hd : data.length ≤ 249
      · have hlen := length_encPlain 0x3D (fileHeader fileNo offset data.length.toUInt32)
          (show data.length ≤ 252 by omega)
        have hpos : ¬ pad16 (data.length + 4) = 0 := by unfold pad16; omega
        rw [encSendPlain_of_le (length_fileHeader ..) hd]
        simp [hd, hlen, hpos]
      · rcases encSendPlain_of_lt 0x3D
          (length_fileHeader fileNo offset data.length.toUInt32)
          (show 249 < data.length by omega) with ⟨h, -⟩ | ⟨h, -⟩ <;>
          simp [h, hd]
  | changeKey keyNo old new ver => simp [encryption, plaintext, hauth, length_changeKeyPlain]
  | _ => rfl

/-- The answers that end the session outside the handshake. -/
def Op.quits (s : Session) (r : LinkResult) : Op → Bool
  | .selectApplication _ => (r.accept [0x00] 0).isSome
  | .changeKey k _ _ _ => k = s.keyNo && (r.accept [0x00] 16).isSome
  | _ => false

/-- What an answer to a request does to the session: it ends it, or counts, or changes nothing. -/
theorem Op.next_cases (aes : Aes) {op : Op} {h : Host} {cmd : UInt8} {params : Bytes}
    (hauth : h.session.authenticated = true) (hq : op.request aes h = some (cmd, params))
    (r : LinkResult) :
    (op.quits h.session r = true ∧ (op.next h.session r).authenticated = false) ∨
      (op.quits h.session r = false ∧ op.next h.session r =
        if op.counted h.session.keyNo r then h.session.bump else h.session) := by
  cases op with
  | selectApplication aid =>
    cases hr : (r.accept [0x00] 0).isSome
    · exact .inr ⟨hr, by simp [next, hr, counted]⟩
    · exact .inl ⟨hr, by simp [next, hr]⟩
  | changeKey k old new ver =>
    by_cases hk : k = h.session.keyNo <;> cases hr : (r.accept [0x00] 16).isSome <;>
      simp [quits, next, counted, hk, hr]
  | authEv2First => exact .inr ⟨rfl, rfl⟩
  | formatPicc | createStdDataFile | getUid => exact .inr ⟨rfl, rfl⟩
  | createApplication => exact .inr ⟨rfl, by simp only [next, hauth, true_and]; rfl⟩
  | readData fileNo offset length comm out outBuf =>
    refine .inr ⟨rfl, ?_⟩
    cases comm with
    | plain | cmac => rfl
    | encrypted =>
      simp only [request, Option.ite_none_right_eq_some] at hq
      obtain ⟨⟨-, h0, hb⟩, -⟩ := hq
      simp [next, counted, h0, hb]
  | writeData fileNo offset comm data =>
    refine .inr ⟨rfl, ?_⟩
    cases comm with
    | plain => rfl
    | cmac | encrypted =>
      simp only [request, Option.ite_none_right_eq_some] at hq
      obtain ⟨⟨-, hd⟩, -⟩ := hq
      simp [next, counted, hd]

theorem Op.not_counted (aes : Aes) {op : Op} {h : Host} (hauth : h.session.authenticated = true)
    (hq : op.request aes h = none) (r : LinkResult) :
    op.counted h.session.keyNo r = false ∧ op.quits h.session r = false := by
  cases op with
  | selectApplication | authEv2First | createApplication => simp [request] at hq
  | formatPicc | createStdDataFile | changeKey | getUid => simp [request, hauth] at hq
  | readData fileNo offset length comm out outBuf =>
    cases comm with
    | plain => simp [request] at hq
    | cmac => simp [request, hauth] at hq
    | encrypted =>
      have hq' : length ≠ 0 → ¬ length.toNat ≤ outBuf := by simpa [request, hauth] using hq
      refine ⟨?_, rfl⟩
      by_cases h0 : length = 0
      · simp [counted, h0]
      · simp [counted, hq' h0]
  | writeData fileNo offset comm data =>
    cases comm with
    | plain => exact ⟨rfl, rfl⟩
    | cmac =>
      have hd : ¬ data.length ≤ 240 := by simpa [request, hauth] using hq
      exact ⟨by simp [counted, hd], rfl⟩
    | encrypted =>
      have hd : ¬ data.length ≤ 236 := by simpa [request, hauth] using hq
      exact ⟨by simp [counted, hd], rfl⟩

theorem Op.ends_eq (aes : Aes) (h : Host) (rs : List LinkResult) {op : Op} (hna : ¬ op.IsAuth) :
    op.ends aes h rs = (op.quits h.session (rs.headD (.error .timeout)) ||
      decide (op.Overruns aes h (rs.headD (.error .timeout)))) := by
  cases op with
  | authEv2First => exact absurd trivial hna
  | selectApplication | changeKey =>
    rw [decide_eq_false (show ¬ Op.Overruns aes h _ _ from id), Bool.or_false]
    rfl
  | _ => rfl

theorem Op.goesOn_eq {op : Op} (hna : ¬ op.IsAuth) (c : Call (List LinkResult) EspErr) :
    op.goesOn c = c.world.host.session.authenticated := by
  cases op with
  | authEv2First => exact absurd trivial hna
  | _ => rfl

/-- Only session and MAC key slot decide whether a call overruns. -/
theorem Op.ends_congr (aes : Aes) {h h' : Host} (hs : h.session = h'.session) (hm : h.macKey = h'.macKey)
    (rs : List LinkResult) (op : Op) : op.ends aes h rs = op.ends aes h' rs := by
  obtain ⟨s, m, st⟩ := h
  obtain ⟨s', m', st'⟩ := h'
  obtain rfl : s = s' := hs
  obtain rfl : m = m' := hm
  cases op with
  | readData _ _ _ comm | writeData _ _ comm => cases comm <;> rfl
  | _ => rfl

/-- The handshake inside a session: it replaces the session, or changes nothing. -/
theorem auth_scripted_step (aes : Aes) {h : Host} (hauth : h.session.authenticated = true)
    (keyNo : UInt8) (key rndA : Block) (rs : List LinkResult) :
    let op := Op.authEv2First keyNo key rndA
    let c := desfireAuthEv2First aes scripted keyNo key rndA ⟨h, rs⟩
    op.goesOn c = !op.ends aes h rs ∧
      (op.ends aes h rs = false → c.world.host.session = h.session ∧ c.world.host.macKey = h.macKey) := by
  intro op c
  have hgo : op.goesOn c = (c.world.host.session.authenticated && c.ret ≠ .ok) := rfl
  have hends : op.ends aes h rs = (authReply1 (rs.headD (.error .timeout))).any fun e =>
      (authReply2 aes key rndA e (rs.tail.headD (.error .timeout))).isSome := rfl
  rw [hgo, hends]
  cases h1 : authReply1 (rs.headD (.error .timeout)) with
  | none =>
    obtain ⟨hret, hs, hm, -⟩ := auth_fail1 aes scripted keyNo key rndA ⟨h, rs⟩ h1
    exact ⟨by simp [c, hret, hs, hauth], fun _ => ⟨hs, hm⟩⟩
  | some e =>
    cases h2 : authReply2 aes key rndA e (rs.tail.headD (.error .timeout)) with
    | none =>
      obtain ⟨hret, hs, hm, -⟩ := auth_fail2 aes scripted keyNo key rndA ⟨h, rs⟩ h1 h2
      simp only [Option.any_some, h2]
      exact ⟨by simp [c, hret, hs, hauth], fun _ => ⟨hs, hm⟩⟩
    | some plain =>
      obtain ⟨hret, -, -, -⟩ := auth_ok aes scripted keyNo key rndA ⟨h, rs⟩ h1 plain h2
      simp only [Option.any_some, h2]
      exact ⟨by simp [c, hret], fun h => nomatch h⟩

/-- One operation of the session: it ends it, or leaves the session with one more counted answer or
with none. -/
theorem Op.scripted_step (aes : Aes) {h : Host} (hauth : h.session.authenticated = true) (op : Op)
    (rs : List LinkResult) :
    if op.ends aes h rs then ∀ c, op.run aes scripted ⟨h, rs⟩ = .ok c → op.goesOn c = false
    else ∃ c, op.run aes scripted ⟨h, rs⟩ = .ok c ∧ op.goesOn c = true ∧
      c.world.host.session =
        (if op.counted h.session.keyNo (rs.headD (.error .timeout)) then h.session.bump
        else h.session) ∧ c.world.host.macKey = h.macKey := by
  by_cases hna : op.IsAuth
  · obtain ⟨keyNo, key, rndA, rfl⟩ := hna.exists_eq
    obtain ⟨hgo, hsame⟩ := auth_scripted_step aes hauth keyNo key rndA rs
    split
    · rename_i he
      rintro c ⟨⟩
      rw [hgo, he, Bool.not_true]
    · rename_i he
      rw [Bool.not_eq_true] at he
      exact ⟨_, rfl, by rw [hgo, he, Bool.not_false], hsame he⟩
  rw [ends_eq aes _ rs hna]
  set r := rs.headD (.error .timeout) with hr
  by_cases hover : op.Overruns aes h r
  · simp only [hover, decide_true, Bool.or_true, ↓reduceIte]
    intro c hc
    obtain ⟨f, hf⟩ := run_of_overruns aes scripted op ⟨h, rs⟩ (fun _ _ _ => rfl) hover
    rw [hf] at hc
    cases hc
  simp only [hover, decide_false, Bool.or_false, goesOn_eq hna]
  cases hq : op.request aes h with
  | none =>
    obtain ⟨hcnt, hquit⟩ := not_counted aes hauth hq r
    obtain ⟨c, hc, -, hw⟩ := run_of_no_request aes scripted op ⟨h, rs⟩ hq r hover
    simp only [hcnt, hquit, Bool.false_eq_true, ↓reduceIte]
    exact ⟨c, hc, by rw [hw]; exact hauth, by rw [hw], by rw [hw]⟩
  | some p =>
    obtain ⟨cmd, params⟩ := p
    obtain ⟨c, hc, hs, hm, -⟩ := run_of_request aes scripted op hna ⟨h, rs⟩ hq hover
    have hs' : c.world.host.session = op.next h.session r := hs
    rcases next_cases aes hauth hq r with ⟨hquit, hend⟩ | ⟨hquit, hnext⟩
    · simp only [hquit, ↓reduceIte, hc, Except.ok.injEq, forall_eq', hs', hend]
    · simp only [hquit, Bool.false_eq_true, ↓reduceIte, hc, Except.ok.injEq, exists_eq_left', hs',
        hnext]
      refine ⟨?_, trivial, hm⟩
      split
      · exact hauth
      · exact hauth

/-! ### Runs -/

def Session.ivAfter (s : Session) (n : Nat) : Block := (s.after n).ivInput 0xA5 0x5A

/-- The encryptions of a run are its timeline, each plaintext under the IV of its place. -/
theorem encryptions_eq (aes : Aes) {h₀ : Host} (hauth : h₀.session.authenticated = true)
    (as : List ScriptedOp) (n : Nat) {h : Host} (hs : h.session = h₀.session.after n)
    (hm : h.macKey = h₀.macKey) :
    encryptions aes h as = (timeline aes h₀ n as).map fun e => (h₀.session.ivAfter e.1, e.2) := by
  induction as generalizing n h with
  | nil => rfl
  | cons a as ih =>
    obtain ⟨op, rs⟩ := a
    have hauth' : h.session.authenticated = true := by rw [hs]; exact hauth
    have hkey : h.session.keyNo = h₀.session.keyNo := by rw [hs]; rfl
    have henc : (op.encryption h.session).toList =
        ((op.plaintext h₀.session.keyNo).toList.map (n, ·)).map fun e =>
          (h₀.session.ivAfter e.1, e.2) := by
      rw [Op.encryption_eq op hauth', hkey, hs]
      cases op.plaintext h₀.session.keyNo <;> rfl
    have hstep := Op.scripted_step aes hauth' op rs
    rw [Op.ends_congr aes (show h.session = (h₀.after n).session from hs)
      (show h.macKey = (h₀.after n).macKey from hm)] at hstep
    rw [encryptions, timeline, List.map_append, henc]
    congr 1
    cases hends : op.ends aes (h₀.after n) rs with
    | true =>
      rw [hends, if_pos rfl] at hstep
      cases hc : op.run aes scripted ⟨h, rs⟩ with
      | error f => rfl
      | ok c => simp [hstep c hc]
    | false =>
      rw [hends, if_neg (by simp)] at hstep
      obtain ⟨c, hc, hgo, hsess, hmac⟩ := hstep
      simp only [hc, hgo, ↓reduceIte, Bool.false_eq_true]
      refine ih _ ?_ (hmac.trans hm)
      rw [hsess, hkey, hs]
      split
      · rw [Session.after_succ]
      · rfl

/-- Two places of a session share their IV input block exactly when a multiple of 65536 answers was
counted between them. -/
theorem ivAfter_eq_iff (s : Session) (m n : Nat) :
    s.ivAfter m = s.ivAfter n ↔ m % 65536 = n % 65536 := by
  have htoList (k : Nat) : (s.ivAfter k).toList =
      [0xA5, 0x5A] ++ s.ti.toList ++ le16 (s.cmdCtr + k.toUInt16) ++ List.replicate 8 0 := by
    rw [Session.ivAfter, Session.ivInput, Block.toList_ofBytes_of_le (by simp)]
    simp [Session.after]
  constructor
  · intro h
    have h' := congrArg Vector.toList h
    rw [htoList, htoList] at h'
    simp only [List.append_assoc, List.append_cancel_left_eq, List.append_cancel_right_eq] at h'
    have hc := le16_injective h'
    have := congrArg UInt16.toNat (show m.toUInt16 = n.toUInt16 by simpa using hc)
    simpa using this
  · intro h
    have : m.toUInt16 = n.toUInt16 := by
      apply UInt16.toNat_inj.1
      simpa using h
    rw [Session.ivAfter, Session.ivAfter, Session.after, Session.after, this]

/-- In a session, the encryptions use fresh IVs if and only if any two different plaintexts are
encrypted at places that differ by no multiple of 65536 counted answers. -/
theorem ivFresh_iff (aes : Aes) {h : Host} (hauth : h.session.authenticated = true)
    (as : List ScriptedOp) :
    IvFresh (encryptions aes h as) ↔
      (timeline aes h 0 as).Pairwise fun a b => a.2 ≠ b.2 → a.1 % 65536 ≠ b.1 % 65536 := by
  rw [encryptions_eq aes hauth as 0 (Session.after_zero _).symm rfl, IvFresh, List.pairwise_map]
  simp only [ne_eq, ivAfter_eq_iff]

/-! ### Fixed runs -/

def honestAnswers (aes : Aes) (key rndA rndB : Block) (ti : Vector UInt8 4) : List LinkResult :=
  let e := cardChallenge aes key rndB
  [.answer 0xAF e.toList, .answer 0x00 (cardAnswer aes key rndA ti (.replicate 12 0)
    (authChallenge aes key rndA e rndB))]

theorem scripted_cons (r : LinkResult) (rs : List LinkResult) (a : Bytes) :
    scripted (r :: rs) a = (r, rs) := rfl

theorem scripted_handshake (aes : Aes) (keyNo : UInt8) (key rndA rndB : Block) (ti : Vector UInt8 4)
    (h : Host) :
    (desfireAuthEv2First aes scripted keyNo key rndA
      ⟨h, honestAnswers aes key rndA rndB ti⟩).world.host.session =
        cardSession aes key rndA rndB keyNo ti := by
  obtain ⟨-, hs, -⟩ := auth_honest aes key rndA rndB scripted keyNo ti (.replicate 12 0)
    ⟨h, honestAnswers aes key rndA rndB ti⟩ (scripted_cons ..) (scripted_cons ..)
  exact hs

def handshakeHost (aes : Aes) : Host :=
  (desfireAuthEv2First aes scripted 0 .zero .zero
    ⟨desfireInit, honestAnswers aes .zero .zero .zero (.replicate 4 0)⟩).world.host

theorem authenticated_handshakeHost (aes : Aes) :
    (handshakeHost aes).session.authenticated = true := by
  rw [handshakeHost, scripted_handshake]
  rfl

/-- An encrypted write of one byte to file 1, with the result of its exchange. -/
def writeByte (b : UInt8) (r : LinkResult) : ScriptedOp := (.writeData 1 0 .encrypted [b], [r])

theorem encPlain_byte_ne {cmd : UInt8} {header header' : Bytes} {a b : UInt8} (h : a ≠ b) :
    encPlain cmd header [a] ≠ encPlain cmd header' [b] := by
  intro he
  have htake (header : Bytes) (b : UInt8) : (encPlain cmd header [b]).take 5 =
      [b] ++ le32 (desfireCrc32 ([cmd] ++ header ++ [b])) :=
    take_padToBlock (show pad16 ([b] ++ le32 (desfireCrc32 ([cmd] ++ header ++ [b]))).length ≤ 256 by
      simp [pad16])
  have := congrArg (List.take 5) he
  rw [htake, htake] at this
  exact h (List.cons.inj this).1

theorem timeline_writeByte (h : Host) (n : Nat) (b : UInt8) (r : LinkResult)
    (as : List ScriptedOp) :
    timeline Aes128.aes128 h n (writeByte b r :: as) =
      (n, encPlain 0x3D (fileHeader 1 0 1) [b]) ::
        timeline Aes128.aes128 h (if (r.accept [0x00] 64).isSome then n + 1 else n) as := by
  have hends : Op.ends Aes128.aes128 (h.after n) [r] (.writeData 1 0 .encrypted [b]) = false :=
    decide_eq_false fun h => absurd h.2.1 (by simp)
  rw [writeByte, timeline, hends]
  simp [Op.plaintext, Op.counted]

theorem ivFresh_answered : IvFresh (encryptions Aes128.aes128 (handshakeHost Aes128.aes128)
    [writeByte 1 (.answer 0x00 (List.replicate 8 0)),
      writeByte 2 (.answer 0x00 (List.replicate 8 0))]) := by
  refine (ivFresh_iff Aes128.aes128 (authenticated_handshakeHost Aes128.aes128) _).2 ?_
  have h : ((LinkResult.answer 0x00 (List.replicate 8 0)).accept [0x00] 64).isSome = true := by decide
  rw [timeline_writeByte, timeline_writeByte, h]
  simp [timeline]

/-- A write that the card refuses, and a retry with another byte. -/
theorem not_ivFresh_refused : ¬ IvFresh (encryptions Aes128.aes128 (handshakeHost Aes128.aes128)
    [writeByte 1 (.answer 0x7E []), writeByte 2 (.answer 0x00 (List.replicate 8 0))]) := by
  have h : ((LinkResult.answer 0x7E []).accept [0x00] 64).isSome = false := by decide
  rw [encryptions_eq Aes128.aes128 (authenticated_handshakeHost Aes128.aes128) _ 0
    (Session.after_zero _).symm rfl, timeline_writeByte, timeline_writeByte, h]
  simp [timeline, IvFresh, encPlain_byte_ne]

end LeafReader
