import LeafReader.CardAuth
import LeafReader.Run
import LeafReader.Aes128

/-!
# Host and card command counters

A card that only counts, and runs of operations in which every exchange is delivered, answered by an
error status without being executed, or lost after it was executed. The counters part ways where the
host does not see, or does not take, the answer to a command the card has executed; `inSync_along`
says that nothing else parts them.
-/

namespace LeafReader

/-! ### The card -/

/-- What becomes of one exchange. -/
inductive Outcome
  | delivered (data : Bytes) (mac8 : Vector UInt8 8)
  | refused (status : UInt8) (h : status ≠ 0x00)
  | lost

namespace Outcome

def executed : Outcome → Bool
  | .delivered .. | .lost => true
  | .refused .. => false

/-- What the host receives; an answer under secure messaging carries a MAC. -/
def result (status : UInt8) (secured : Bool) : Outcome → LinkResult
  | .delivered data mac8 => .answer status (if secured then data ++ mac8.toList else data)
  | .refused st _ => .answer st []
  | .lost => .error .timeout

end Outcome

/-- A command is under secure messaging when it is longer than its plain form. -/
def secured (cmd : UInt8) (params : Bytes) : Bool :=
  if cmd = 0xFC ∨ cmd = 0x51 then params.length ≠ 0
  else if cmd = 0xCA then params.length ≠ 5
  else if cmd = 0xCD ∨ cmd = 0xBD then params.length ≠ 7
  else if cmd = 0x3D then params.length ≠ 7 + ofLe24 (params.drop 4)
  else cmd = 0xC4

/-- The card's own command counter, and what will become of the next exchanges. -/
structure CounterCard where
  ctr : UInt16
  outcomes : List Outcome

/-- The counter is 0 after a completed handshake and moves with every secured command executed. -/
def CounterCard.count (cmd : UInt8) (params : Bytes) (ctr : UInt16) : UInt16 :=
  if cmd = 0xAF then 0 else if secured cmd params then ctr + 1 else ctr

def CounterCard.exchange : Nfc CounterCard := fun card a =>
  let (cmd, params) := parseApdu a
  match card.outcomes with
  | [] => (.error .timeout, card)
  | o :: os =>
    (o.result (if cmd = 0x71 then 0xAF else 0x00) (secured cmd params),
      ⟨if o.executed then CounterCard.count cmd params card.ctr else card.ctr, os⟩)

/-! ### Runs -/

abbrev CounterAction := Op × List Outcome

def counterStep (aes : Aes) (a : CounterAction) (w : World CounterCard) :
    Except Fault (World CounterCard) :=
  (a.1.run aes CounterCard.exchange { w with link := ⟨w.link.ctr, a.2⟩ }).map (·.world)

/-- The counters agree, or the host has no session. -/
def InSync (w : World CounterCard) : Prop :=
  w.host.session.cmdCtr = w.link.ctr ∨ w.host.session.authenticated = false

def Op.Protected : Op → Bool
  | .formatPicc | .createApplication .. | .createStdDataFile .. | .changeKey .. | .getUid _ => true
  | .readData _ _ _ comm _ _ | .writeData _ _ comm _ => comm ≠ .plain
  | .selectApplication _ | .authEv2First .. => false

/-- The longest answer, MAC included, that the host takes for the operation's success. -/
def Op.limit : Op → Nat
  | .readData _ _ _ .cmac _ outBuf => min outBuf 278
  | .readData .. | .getUid _ => 278
  | .writeData _ _ .encrypted _ => 64
  | .changeKey .. => 16
  | _ => 0

def Op.TakesAF : Op → Bool
  | .formatPicc | .createApplication .. | .createStdDataFile .. => true
  | .readData _ _ _ comm _ _ | .writeData _ _ comm _ => comm = .cmac
  | _ => false

/-- The host learns of the outcome of a secured command: an executed one is answered, within the
operation's limit, and one that is not executed is not answered by a status taken for success. -/
def Outcome.Seen (op : Op) : Outcome → Prop
  | .delivered data _ => data.length + 8 ≤ op.limit
  | .refused st _ => op.TakesAF → st ≠ 0xAF
  | .lost => False

/-- When the card completes the handshake, so does the host. -/
def HandshakeSeen (aes : Aes) (key rndA : Block) : List Outcome → Prop
  | o1 :: o2 :: _ =>
    ∀ eRndB, authReply1 (o1.result 0xAF false) = some eRndB → o2.executed →
      authReply2 aes key rndA eRndB (o2.result 0x00 false) ≠ none
  | _ => True

/-- The action writes and reads inside its arrays, and in a session the host learns what the card
has counted. -/
def CounterSafe (aes : Aes) (a : CounterAction) (w : World CounterCard) : Prop :=
  let s := w.host.session
  (∀ r, (r = .error .timeout ∨ ∃ o ∈ a.2.head?, r = o.result 0x00 (s.authenticated && a.1.Protected)) →
    ¬ a.1.Overruns aes w.host r) ∧
  (s.authenticated →
    match a.1 with
    | .authEv2First _ key rndA => HandshakeSeen aes key rndA a.2
    | op => op.Protected → ∀ o ∈ a.2.head?, o.Seen op)

/-! ### One step -/

theorem drop_fileHeader (fileNo : UInt8) (offset length : UInt32) (l : Bytes) :
    (fileHeader fileNo offset length ++ l).drop 4 = le24 length ++ l := rfl

theorem ofLe24_writeHeader (fileNo : UInt8) (offset : UInt32) {n : Nat} (hn : n ≤ 248) (l : Bytes) :
    ofLe24 ((fileHeader fileNo offset n.toUInt32 ++ l).drop 4) = n := by
  have h : n.toUInt32.toNat = n := by
    rw [Nat.toUInt32, UInt32.toNat_ofNat']
    omega
  rw [drop_fileHeader, ofLe24_le24, h]
  omega

/-- Cipher and MAC are longer than the data of an encrypted write. -/
theorem secured_encParams (aes : Aes) (h : Host) (fileNo : UInt8) (offset : UInt32) {data : Bytes}
    (hd : data.length ≤ 236) :
    let hdr := fileHeader fileNo offset data.length.toUInt32
    secured 0x3D (encParams aes h 0x3D hdr (encPlain 0x3D hdr data)) = true := by
  intro hdr
  have hlen := length_encPlain 0x3D hdr (show data.length ≤ 252 by omega)
  have hmod : (encPlain 0x3D hdr data).length % 16 = 0 := by
    rw [hlen]
    exact pad16_mod _
  have hoff : ofLe24 ((encParams aes h 0x3D hdr (encPlain 0x3D hdr data)).drop 4) = data.length := by
    rw [encParams, List.append_assoc, ofLe24_writeHeader fileNo offset (by omega)]
  have hgt : data.length ≤ pad16 (data.length + 4) := by
    unfold pad16
    omega
  have h7 : hdr.length = 7 := length_fileHeader ..
  simp only [secured, hoff, length_encParams aes h 0x3D hdr hmod, hlen, h7]
  simp
  omega

/-- The card tells from the length whether a request is under secure messaging. -/
theorem secured_request (aes : Aes) {op : Op} {h : Host} {cmd : UInt8} {params : Bytes}
    (hna : ¬ op.IsAuth) (hq : op.request aes h = some (cmd, params)) :
    cmd ≠ 0xAF ∧ cmd ≠ 0x71 ∧ secured cmd params = (h.session.authenticated && op.Protected) := by
  cases op with
  | authEv2First => exact absurd trivial hna
  | selectApplication aid =>
    cases hq
    simp [secured, Op.Protected]
  | formatPicc | createStdDataFile | getUid =>
    simp only [Op.request, Option.ite_none_right_eq_some, Option.some.injEq, Prod.mk.injEq] at hq
    obtain ⟨hauth, rfl, rfl⟩ := hq
    simp [secured, Op.Protected, hauth]
  | createApplication aid ks nk =>
    simp only [Op.request, Option.some.injEq, Prod.mk.injEq] at hq
    obtain ⟨rfl, rfl⟩ := hq
    cases hauth : h.session.authenticated <;> simp [secured, Op.Protected]
  | changeKey keyNo old new ver =>
    simp only [Op.request, Option.ite_none_right_eq_some, Option.some.injEq, Prod.mk.injEq] at hq
    obtain ⟨hauth, rfl, -⟩ := hq
    simp [secured, Op.Protected, hauth]
  | readData fileNo offset length comm out outBuf =>
    cases comm <;> simp [Op.request] at hq
    · obtain ⟨rfl, rfl⟩ := hq
      simp [secured, Op.Protected]
    · obtain ⟨hauth, rfl, rfl⟩ := hq
      simp [secured, Op.Protected, hauth]
    · obtain ⟨⟨hauth, -⟩, rfl, rfl⟩ := hq
      simp [secured, Op.Protected, hauth]
  | writeData fileNo offset comm data =>
    cases comm <;> simp [Op.request] at hq
    · obtain ⟨hd, rfl, rfl⟩ := hq
      simp [secured, Op.Protected, ofLe24_writeHeader fileNo offset hd]
    · obtain ⟨⟨hauth, hd⟩, rfl, rfl⟩ := hq
      rw [cmacParams, List.append_assoc]
      simp [secured, Op.Protected, hauth,
        ofLe24_writeHeader fileNo offset (show data.length ≤ 248 by omega)]
    · obtain ⟨⟨hauth, hd⟩, rfl, rfl⟩ := hq
      rw [secured_encParams aes h fileNo offset hd]
      simp [Op.Protected, hauth]

/-- An unprotected operation leaves the session as it is, unless it ends it. -/
theorem Op.next_unprotected {op : Op} (s : Session) (r : LinkResult) (hp : op.Protected = false) :
    op.next s r = s ∨ (op.next s r).authenticated = false := by
  cases op with
  | selectApplication => simp only [next]; split <;> simp
  | authEv2First => exact .inl rfl
  | readData _ _ _ comm | writeData _ _ comm =>
    cases comm with
    | plain => exact .inl rfl
    | cmac | encrypted => cases hp
  | formatPicc | createApplication | createStdDataFile | changeKey | getUid => cases hp

theorem accept_delivered {good : List UInt8} {cap : Nat} {data : Bytes} {mac8 : Vector UInt8 8}
    (hg : 0x00 ∈ good) (hc : data.length + 8 ≤ cap) (h : data.length + 8 ≤ 278) :
    (LinkResult.answer 0x00 (data ++ mac8.toList)).accept good cap =
      some (0x00, data ++ mac8.toList) :=
  LinkResult.accept_eq_some.2 ⟨LinkResult.parse_answer _ (by simp; omega), hg, by simpa using hc⟩

theorem Op.next_refused {op : Op} (hp : op.Protected) (s : Session) {st : UInt8} (h0 : st ≠ 0x00)
    (hs : op.TakesAF → st ≠ 0xAF) : op.next s (.answer st []) = s := by
  have h00 (cap : Nat) : (LinkResult.answer st []).accept [0x00] cap = none :=
    accept_refused (by simpa using h0)
  have hAF (cap : Nat) (h : op.TakesAF) : (LinkResult.answer st []).accept [0x00, 0xAF] cap = none :=
    accept_refused (by simpa using ⟨h0, hs h⟩)
  cases op with
  | selectApplication | authEv2First => cases hp
  | formatPicc | createApplication | createStdDataFile => simp [next, hAF _ rfl]
  | changeKey | getUid => simp [next, h00]
  | readData _ _ _ comm | writeData _ _ comm =>
    cases comm with
    | plain => cases hp
    | cmac => simp [next, hAF _ rfl]
    | encrypted => simp [next, h00]

/-- An answer within the operation's limit is counted, or ends the session. -/
theorem Op.next_delivered {op : Op} (hp : op.Protected) (s : Session) {data : Bytes}
    {mac8 : Vector UInt8 8} (hs : data.length + 8 ≤ op.limit) :
    let s' := op.next s (.answer 0x00 (data ++ mac8.toList))
    s' = s.bump ∨ s'.authenticated = false := by
  have hacc (good : List UInt8) (cap : Nat) (hg : 0x00 ∈ good) (hc : data.length + 8 ≤ cap)
      (h : data.length + 8 ≤ 278)  :
      (LinkResult.answer 0x00 (data ++ mac8.toList)).accept good cap = some (0x00, data ++ mac8.toList) :=
    accept_delivered hg hc h
  cases op with
  | selectApplication | authEv2First => cases hp
  | formatPicc | createApplication | createStdDataFile => simp [limit] at hs
  | changeKey keyNo =>
    simp only [limit] at hs
    simp only [next, hacc [0x00] 16 (by simp) (by omega) (by omega)]
    by_cases hk : keyNo = s.keyNo
    · simp [hk]
    · simp [hk]
  | getUid =>
    simp only [limit] at hs
    simp [next, hacc [0x00] 280 (by simp) (by omega) (by omega)]
  | readData _ _ _ comm _ outBuf =>
    cases comm with
    | plain => cases hp
    | cmac =>
      simp only [limit] at hs
      simp [next, hacc [0x00, 0xAF] outBuf (by simp) (by omega) (by omega)]
    | encrypted =>
      simp only [limit] at hs
      simp [next, hacc [0x00] 280 (by simp) (by omega) (by omega)]
  | writeData _ _ comm =>
    cases comm with
    | plain => cases hp
    | cmac => simp [limit] at hs
    | encrypted =>
      simp only [limit] at hs
      simp [next, hacc [0x00] 64 (by simp) (by omega) (by omega)]

/-- In a session, the host counts a protected operation whose outcome it learns exactly when the
card executed it, unless the operation ends the session. -/
theorem Op.next_seen {op : Op} (hp : op.Protected) (s : Session) {o : Outcome}
    (hs : o.Seen op) :
    let s' := op.next s (o.result 0x00 true)
    s'.cmdCtr = (if o.executed then s.cmdCtr + 1 else s.cmdCtr) ∨ s'.authenticated = false := by
  cases o with
  | lost => exact hs.elim
  | refused st h0 => exact .inl (congrArg Session.cmdCtr (Op.next_refused hp s h0 hs))
  | delivered data mac8 =>
    have h : op.next s (.answer 0x00 (data ++ mac8.toList)) = s.bump ∨ _ := Op.next_delivered hp s hs
    rcases h with h | h
    · exact .inl (congrArg Session.cmdCtr h)
    · exact .inr h

theorem exchange_nil (ctr : UInt16) (a : Bytes) :
    CounterCard.exchange ⟨ctr, []⟩ a = (.error .timeout, ⟨ctr, []⟩) := rfl

theorem exchange_cons (ctr : UInt16) (o : Outcome) (os : List Outcome) (cmd : UInt8)
    (params : Bytes) :
    CounterCard.exchange ⟨ctr, o :: os⟩ (apdu cmd params) =
      (o.result (if cmd = 0x71 then 0xAF else 0x00) (secured cmd params),
        ⟨if o.executed then CounterCard.count cmd params ctr else ctr, os⟩) := by
  simp [CounterCard.exchange]

/-- The host accepts a second answer only from a card that executed the second step. -/
theorem executed_of_authReply2 {aes : Aes} {key rndA eRndB : Block} {o : Outcome} {plain : Bytes}
    (h : authReply2 aes key rndA eRndB (o.result 0x00 false) = some plain) : o.executed = true := by
  cases o with
  | delivered => rfl
  | lost => rfl
  | refused st h0 =>
    have : (LinkResult.answer st []).accept [0x00] 64 = none := accept_refused (by simpa using h0)
    simp [authReply2, Outcome.result, this] at h

/-- The handshake: the host's counter and the card's are both 0 when it completes on both sides, and
the host keeps its session when it completes on neither. -/
theorem auth_inSync (aes : Aes) (keyNo : UInt8) (key rndA : Block) {w : World CounterCard}
    (hsafe : w.host.session.authenticated → HandshakeSeen aes key rndA w.link.outcomes)
    (hi : InSync w) :
    InSync (desfireAuthEv2First aes CounterCard.exchange keyNo key rndA w).world := by
  obtain ⟨host, ctr, os⟩ := w
  have hsame {w' : World CounterCard} (hs : w'.host.session = host.session) (hc : w'.link.ctr = ctr) :
      InSync w' := by rw [InSync, hs, hc]; exact hi
  have h71 : secured 0x71 [keyNo, 0x00, 0x00] = false := rfl
  have hAF (p : Bytes) : secured 0xAF p = false := rfl
  cases os with
  | nil =>
    obtain ⟨-, hs, -, hl⟩ := auth_fail1 aes CounterCard.exchange keyNo key rndA ⟨host, ctr, []⟩ rfl
    exact hsame hs (by rw [hl]; rfl)
  | cons o1 os1 =>
    have hx1 : CounterCard.exchange ⟨ctr, o1 :: os1⟩ (apdu 0x71 [keyNo, 0x00, 0x00]) =
        (o1.result 0xAF false, ⟨ctr, os1⟩) := by
      rw [exchange_cons, h71]
      simp [CounterCard.count, h71]
    cases h1 : authReply1 (o1.result 0xAF false) with
    | none =>
      obtain ⟨-, hs, -, hl⟩ := auth_fail1 aes CounterCard.exchange keyNo key rndA
        ⟨host, ctr, o1 :: os1⟩ (by rw [hx1]; exact h1)
      exact hsame hs (by rw [hl, hx1])
    | some eRndB =>
      have h1' : authReply1 (CounterCard.exchange ⟨ctr, o1 :: os1⟩
          (apdu 0x71 [keyNo, 0x00, 0x00])).1 = some eRndB := by rw [hx1]; exact h1
      have hfail := auth_fail2 aes CounterCard.exchange keyNo key rndA ⟨host, ctr, o1 :: os1⟩ h1'
      have hok := auth_ok aes CounterCard.exchange keyNo key rndA ⟨host, ctr, o1 :: os1⟩ h1'
      simp only [hx1] at hfail hok
      cases os1 with
      | nil =>
        obtain ⟨-, hs, -, hl⟩ := hfail rfl
        exact hsame hs (by rw [hl]; rfl)
      | cons o2 os2 =>
        rw [exchange_cons, hAF] at hfail hok
        simp only [CounterCard.count, ↓reduceIte, show (0xAF : UInt8) ≠ 0x71 by decide] at hfail hok
        cases h2 : authReply2 aes key rndA eRndB (o2.result 0x00 false) with
        | none =>
          obtain ⟨-, hs, -, hl⟩ := hfail h2
          cases hauth : host.session.authenticated with
          | false => exact .inr (by rw [hs]; exact hauth)
          | true =>
            have he : ¬ o2.executed := fun he => hsafe hauth eRndB h1 he h2
            exact hsame hs (by rw [hl, if_neg he])
        | some plain =>
          obtain ⟨-, hs, -, hl⟩ := hok plain h2
          refine .inl ?_
          rw [hs, hl, executed_of_authReply2 h2]
          rfl

/-- The card counts a command executed under secure messaging, and the host counts it too or ends the
session. -/
theorem Op.next_counts {op : Op} {s : Session} {ctr : UInt16} {o : Outcome}
    (hi : s.cmdCtr = ctr ∨ s.authenticated = false)
    (hseen : s.authenticated = true → op.Protected = true → o.Seen op) :
    let k := s.authenticated && op.Protected
    let s' := op.next s (o.result 0x00 k)
    s'.cmdCtr = (if o.executed then if k then ctr + 1 else ctr else ctr) ∨ s'.authenticated = false := by
  intro k s'
  cases hauth : s.authenticated with
  | false => exact .inr (Op.next_unauth op _ hauth)
  | true =>
    have hctr : s.cmdCtr = ctr := by
      rcases hi with h | h
      · exact h
      · exact absurd h (by simp [hauth])
    cases hp : op.Protected with
    | false =>
      have hk : k = false := by simp [k, hp]
      rw [show s' = op.next s (o.result 0x00 k) from rfl, hk]
      rcases Op.next_unprotected s (o.result 0x00 false) hp with h | h
      · refine .inl ?_
        simp [h, hctr]
      · exact .inr h
    | true =>
      have hk : k = true := by simp [k, hauth, hp]
      rw [show s' = op.next s (o.result 0x00 k) from rfl, hk]
      rcases Op.next_seen hp s (hseen hauth hp) with h | h
      · refine .inl ?_
        rw [h, hctr, if_pos rfl]
      · exact .inr h

theorem counterStep_inSync (aes : Aes) {a : CounterAction} {w : World CounterCard}
    (hsafe : CounterSafe aes a w) (hi : InSync w) : ∃ w', counterStep aes a w = .ok w' ∧ InSync w' := by
  obtain ⟨op, os⟩ := a
  obtain ⟨host, ctr, os0⟩ := w
  obtain ⟨hover, hseen⟩ := hsafe
  by_cases hna : op.IsAuth
  · obtain ⟨keyNo, key, rndA, rfl⟩ := hna.exists_eq
    exact ⟨_, rfl, auth_inSync aes keyNo key rndA (w := ⟨host, ctr, os⟩) hseen hi⟩
  simp only [counterStep]
  cases hq : op.request aes host with
  | none =>
    obtain ⟨c, hc, -, hw⟩ := Op.run_of_no_request aes CounterCard.exchange op ⟨host, ctr, os⟩ hq
      (.error .timeout) (hover _ (.inl rfl))
    refine ⟨c.world, by rw [hc]; rfl, ?_⟩
    rw [hw]
    exact hi
  | some p =>
    obtain ⟨cmd, params⟩ := p
    obtain ⟨hAF, h71, hsec⟩ := secured_request aes hna hq
    have hrun := Op.run_of_request aes CounterCard.exchange op hna ⟨host, ctr, os⟩ hq
    cases os with
    | nil =>
      obtain ⟨c, hc, hs, -, hl⟩ := hrun (hover _ (.inl rfl))
      refine ⟨c.world, by rw [hc]; rfl, ?_⟩
      rw [InSync, hs, hl, exchange_nil, Op.next_error]
      exact hi
    | cons o os =>
      rw [exchange_cons, if_neg h71, hsec, CounterCard.count, if_neg hAF, hsec] at hrun
      obtain ⟨c, hc, hs, -, hl⟩ := hrun (hover _ (.inr ⟨o, rfl, rfl⟩))
      refine ⟨c.world, by rw [hc]; rfl, ?_⟩
      rw [InSync, hs, hl]
      refine Op.next_counts hi fun hauth hp => ?_
      cases op with
      | authEv2First => exact absurd trivial hna
      | _ => exact hseen hauth hp o rfl

/-- Along every run whose outcomes the host learns, the host and card counters agree in every state
in which the host has a session. -/
theorem inSync_along (aes : Aes) (as : List CounterAction) (w : World CounterCard) (hw : InSync w)
    (hsafe : Guarded (counterStep aes) (CounterSafe aes) as w) :
    Along (counterStep aes) InSync as w :=
  Along.of_guarded (fun _ h => h) (fun _ _ hc hi => counterStep_inSync aes hc hi) as w hw hsafe

/-! ### Fixed runs -/

def honestHandshake (aes : Aes) (key rndA rndB : Block) (ti : Vector UInt8 4) : List Outcome :=
  let mac8 := Vector.replicate 8 0
  let e := cardChallenge aes key rndB
  [.delivered e.toList mac8, .delivered (cardAnswer aes key rndA ti (Vector.replicate 12 0)
    (authChallenge aes key rndA e rndB)) mac8]

def firstHandshake : CounterAction :=
  (.authEv2First 0 .zero .zero, honestHandshake Aes128.aes128 .zero .zero .zero (.replicate 4 0))

def askUid (o : Outcome) : CounterAction := (.getUid (.replicate 7 0), [o])

theorem counterSafe_auth (aes : Aes) (keyNo : UInt8) (key rndA : Block) (os : List Outcome)
    {w : World CounterCard} (h : w.host.session.authenticated = false) :
    CounterSafe aes (.authEv2First keyNo key rndA, os) w :=
  ⟨fun _ _ h => h, fun h' => absurd h' (by simp [h])⟩

theorem counterSafe_getUid (aes : Aes) (uid : Bytes) {data : Bytes} (mac8 : Vector UInt8 8)
    (h : data.length ≤ 270) (w : World CounterCard) :
    CounterSafe aes (.getUid uid, [.delivered data mac8]) w :=
  ⟨fun _ _ h => h, fun _ _ o ho => by
    obtain rfl : Outcome.delivered data mac8 = o := Option.some.inj ho
    show data.length + 8 ≤ 278
    omega⟩

theorem inSync_along_answeredUid :
    Along (counterStep Aes128.aes128) InSync
      [firstHandshake, askUid (.delivered (.replicate 16 0) (.replicate 8 0))]
      ⟨desfireInit, ⟨0, []⟩⟩ :=
  inSync_along Aes128.aes128 _ _ (.inl rfl)
    ⟨counterSafe_auth _ _ _ _ _ rfl, fun _ _ =>
      ⟨counterSafe_getUid _ _ _ (by simp) _, fun _ _ => trivial⟩⟩

theorem exchange_delivered (ctr : UInt16) (data : Bytes) (mac8 : Vector UInt8 8) (os : List Outcome)
    {cmd : UInt8} (params : Bytes) (h : secured cmd params = false) :
    CounterCard.exchange ⟨ctr, .delivered data mac8 :: os⟩ (apdu cmd params) =
      (.answer (if cmd = 0x71 then 0xAF else 0x00) data, ⟨if cmd = 0xAF then 0 else ctr, os⟩) := by
  simp [exchange_cons, h, Outcome.result, Outcome.executed, CounterCard.count]

theorem handshake_completes (aes : Aes) (keyNo : UInt8) (key rndA rndB : Block)
    (ti : Vector UInt8 4) (w : World CounterCard) :
    ∃ w', counterStep aes (.authEv2First keyNo key rndA, honestHandshake aes key rndA rndB ti) w =
      .ok w' ∧ w'.host.session = cardSession aes key rndA rndB keyNo ti ∧ w'.link.ctr = 0 := by
  let e := cardChallenge aes key rndB
  let challenge := authChallenge aes key rndA e rndB
  let answer := Outcome.delivered (cardAnswer aes key rndA ti (.replicate 12 0) challenge)
    (.replicate 8 0)
  have hx1 : CounterCard.exchange ⟨w.link.ctr, honestHandshake aes key rndA rndB ti⟩
      (apdu 0x71 [keyNo, 0x00, 0x00]) = (.answer 0xAF e.toList, ⟨w.link.ctr, [answer]⟩) :=
    exchange_delivered _ _ _ _ _ rfl
  have hx2 : CounterCard.exchange ⟨w.link.ctr, [answer]⟩ (apdu 0xAF challenge) =
      (.answer 0x00 (cardAnswer aes key rndA ti (.replicate 12 0) challenge), ⟨0, []⟩) :=
    exchange_delivered _ _ _ _ _ rfl
  obtain ⟨-, hs, -, hl⟩ := auth_honest aes key rndA rndB CounterCard.exchange keyNo ti
    (.replicate 12 0) ⟨w.host, ⟨w.link.ctr, honestHandshake aes key rndA rndB ti⟩⟩ hx1 hx2
  exact ⟨(desfireAuthEv2First aes CounterCard.exchange keyNo key rndA
    ⟨w.host, ⟨w.link.ctr, honestHandshake aes key rndA rndB ti⟩⟩).world, rfl, hs, by rw [hl]⟩

/-- A GetCardUID that is executed and whose answer is lost: the card has counted, the host has not,
and the session is still marked as live. -/
theorem lostUid_not_inSync :
    ∃ w1 w2, counterStep Aes128.aes128 firstHandshake ⟨desfireInit, ⟨0, []⟩⟩ = .ok w1 ∧
      counterStep Aes128.aes128 (askUid .lost) w1 = .ok w2 ∧ ¬ InSync w2 := by
  obtain ⟨w1, h1, hs1, hl1⟩ := handshake_completes Aes128.aes128 0 .zero .zero .zero
    (.replicate 4 0) ⟨desfireInit, ⟨0, []⟩⟩
  have hq : (Op.getUid (.replicate 7 0)).request Aes128.aes128 w1.host =
      some (0x51, cmacParams Aes128.aes128 w1.host 0x51 [] []) := by
    simp [Op.request, hs1, cardSession]
  obtain ⟨c, hc, hs, -, hl⟩ := Op.run_of_request Aes128.aes128 CounterCard.exchange
    (.getUid (.replicate 7 0)) (fun h => h) ⟨w1.host, ⟨w1.link.ctr, [.lost]⟩⟩ hq (fun h => h)
  refine ⟨w1, c.world, h1, by rw [counterStep, askUid, hc]; rfl, ?_⟩
  rw [InSync, hs, hl, exchange_cons]
  simp [Outcome.result, Op.next_error, hs1, hl1, cardSession, Outcome.executed, CounterCard.count,
    secured]

end LeafReader
