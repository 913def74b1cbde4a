import LeafReader.CardAuth
import LeafReader.Run
import LeafReader.Aes128

/-!
# Does the session flag tell the truth?

A card that keeps a session and a handshake in progress, and runs in which every exchange can fail
before or after the card sees it. The flag goes stale where the card ends its session and the host
does not learn of it (`SessionSafe` names the places); `flagTrue_along` says there are no others.
-/

namespace LeafReader

/-! ### The card -/

inductive Fate
  | lostRequest
  | lostReply
  | refused (status : UInt8) (h : status ≠ 0x00)
  | delivered
deriving DecidableEq

/-- One exchange: what becomes of it, and what the card uses in it: its key for the key number and
`RndB` in step 1 of a handshake, `TI` and capabilities in step 2, the data of the answer to
ChangeKey, and the whole result of any other command. -/
structure CardEvent where
  fate : Fate
  key : Block
  rndB : Block
  ti : Vector UInt8 4
  caps : Vector UInt8 12
  data : Bytes
  result : LinkResult

/-- The session the card has, the handshake it has begun, and its exchanges to come. -/
structure SessionCard where
  session : Option Session
  pending : Option (UInt8 × Block × Block)
  events : List CardEvent

namespace SessionCard

variable (aes : Aes)

/-- The card executes a command. SelectApplication, the start of a handshake and a ChangeKey of the
session's own key end the session; only a completed handshake opens one. -/
def execute (e : CardEvent) (c : SessionCard) (cmd : UInt8) (params : Bytes) :
    LinkResult × SessionCard :=
  if cmd = 0x5A then (.answer 0x00 [], { c with session := none, pending := none })
  else if cmd = 0x71 then
    (.answer 0xAF (cardChallenge aes e.key e.rndB).toList,
      { c with session := none, pending := some (params.getD 0 0, e.key, e.rndB) })
  else if cmd = 0xAF then
    match c.pending with
    | none => (.answer 0x1C [], c)
    | some (keyNo, key, rndB) => match cardCheck aes key rndB params with
      | none => (.answer 0xAE [], { c with pending := none })
      | some rndA => (.answer 0x00 (cardAnswer aes key rndA e.ti e.caps params),
        { c with session := some (cardSession aes key rndA rndB keyNo e.ti), pending := none })
  else if cmd = 0xC4 then
    match c.session with
    | none => (.answer 0x9D [], c)
    | some s =>
      (.answer 0x00 e.data, if params.getD 0 0 = s.keyNo then { c with session := none } else c)
  else (e.result, c)

/-- The card refuses a command. It has still received a SelectApplication, and a refused reply ends
the handshake. -/
def refuse (st : UInt8) (c : SessionCard) (cmd : UInt8) : LinkResult × SessionCard :=
  (.answer st [],
    if cmd = 0x5A then { c with session := none, pending := none }
    else if cmd = 0xAF then { c with pending := none }
    else c)

def exchange : Nfc SessionCard := fun c a =>
  let (cmd, params) := parseApdu a
  match c.events with
  | [] => (.error .timeout, c)
  | e :: es =>
    let c := { c with events := es }
    match e.fate with
    | .lostRequest => (.error .timeout, c)
    | .lostReply => (.error .timeout, (c.execute aes e cmd params).2)
    | .refused st _ => c.refuse st cmd
    | .delivered => c.execute aes e cmd params

end SessionCard

/-! ### Runs -/

abbrev SessionAction := Op × List CardEvent

def sessionStep (aes : Aes) (a : SessionAction) (w : World SessionCard) :
    Except Fault (World SessionCard) :=
  (a.1.run aes (SessionCard.exchange aes) { w with link := { w.link with events := a.2 } }).map
    (·.world)

/-- A live session of the host is the card's session: TI, encryption key and MAC key. -/
def FlagTrue (w : World SessionCard) : Prop :=
  w.host.session.authenticated = true → ∃ s, w.link.session = some s ∧ s.ti = w.host.session.ti ∧
    s.kSesAuthEnc = w.host.session.kSesAuthEnc ∧ s.kSesAuthMac = w.host.session.kSesAuthMac

/-- The same, with the key number: what a run keeps. -/
def SameSession (w : World SessionCard) : Prop :=
  w.host.session.authenticated = true → ∃ s, w.link.session = some s ∧
    s.keyNo = w.host.session.keyNo ∧ s.ti = w.host.session.ti ∧
    s.kSesAuthEnc = w.host.session.kSesAuthEnc ∧ s.kSesAuthMac = w.host.session.kSesAuthMac

theorem SameSession.flagTrue {w : World SessionCard} (h : SameSession w) : FlagTrue w := fun ha => by
  obtain ⟨s, hs, -, ht, he, hm⟩ := h ha
  exact ⟨s, hs, ht, he, hm⟩

/-- The host's reply to the challenge of a card that holds another key. -/
def hostReply (aes : Aes) (key rndA : Block) (e : CardEvent) : Bytes :=
  authChallenge aes key rndA (cardChallenge aes e.key e.rndB)
    (authRndB aes key (cardChallenge aes e.key e.rndB))

/-- In a session, a handshake does not reach the card, or is refused at step 1, or completes: the
second exchange is delivered too and the card holds the host's key. In any state, a card that holds
another key turns the host's reply down. -/
def HandshakeSafe (aes : Aes) (auth : Bool) (key rndA : Block) : List CardEvent → Prop
  | [] => True
  | e1 :: es =>
    (key ≠ e1.key → cardCheck aes e1.key e1.rndB (hostReply aes key rndA e1) = none) ∧
      (auth → e1.fate = .lostRequest ∨ (∃ st h, e1.fate = .refused st h) ∨
        (e1.fate = .delivered ∧ key = e1.key ∧ ∃ e2 ∈ es.head?, e2.fate = .delivered))

def CardEvent.outcome (e : CardEvent) : LinkResult :=
  match e.fate with
  | .lostRequest | .lostReply => .error .timeout
  | .refused st _ => .answer st []
  | .delivered => e.result

/-- The host learns when the card ends its session: a select in a session is delivered or does not
reach the card, so does a ChangeKey of the session's own key unless it is refused, and its answer
fits `rx[16]`. No array is overrun. -/
def SessionSafe (aes : Aes) (a : SessionAction) (w : World SessionCard) : Prop :=
  let s := w.host.session
  match a.1 with
  | .selectApplication _ =>
    s.authenticated → ∀ e ∈ a.2.head?, e.fate = .lostRequest ∨ e.fate = .delivered
  | .authEv2First _ key rndA => HandshakeSafe aes s.authenticated key rndA a.2
  | .changeKey k _ _ _ =>
    k = s.keyNo → ∀ e ∈ a.2.head?, e.fate = .lostRequest ∨ (∃ st h, e.fate = .refused st h) ∨
      (e.fate = .delivered ∧ e.data.length ≤ 16)
  | op => ∀ r, (r = .error .timeout ∨ ∃ e ∈ a.2.head?, r = e.outcome) → ¬ op.Overruns aes w.host r

/-! ### One operation -/

variable (aes : Aes)

def Op.IsData : Op → Prop
  | .selectApplication _ | .authEv2First .. | .changeKey .. => False
  | _ => True

theorem Op.request_data {op : Op} (hd : op.IsData) {h : Host} {cmd : UInt8} {params : Bytes}
    (hq : op.request aes h = some (cmd, params)) :
    cmd ≠ 0x5A ∧ cmd ≠ 0x71 ∧ cmd ≠ 0xAF ∧ cmd ≠ 0xC4 := by
  cases op with
  | selectApplication | authEv2First | changeKey => exact hd.elim
  | formatPicc | createStdDataFile | getUid =>
    simp only [request, Option.ite_none_right_eq_some, Option.some.injEq, Prod.mk.injEq] at hq
    obtain ⟨-, rfl, -⟩ := hq
    decide
  | createApplication =>
    simp only [request, Option.some.injEq, Prod.mk.injEq] at hq
    obtain ⟨rfl, -⟩ := hq
    decide
  | readData fileNo offset length comm out outBuf =>
    cases comm <;> simp only [request, Option.ite_none_right_eq_some, Option.some.injEq,
      Prod.mk.injEq] at hq
    · obtain ⟨rfl, -⟩ := hq
      decide
    · obtain ⟨-, rfl, -⟩ := hq
      decide
    · obtain ⟨-, rfl, -⟩ := hq
      decide
  | writeData fileNo offset comm data =>
    cases comm <;> simp only [request, Option.ite_none_right_eq_some, Option.some.injEq,
      Prod.mk.injEq] at hq <;>
    · obtain ⟨-, rfl, -⟩ := hq
      decide

theorem Op.next_data {op : Op} (hd : op.IsData) (s : Session) (r : LinkResult) :
    op.next s r = s ∨ op.next s r = s.bump := by
  cases op with
  | selectApplication | authEv2First | changeKey => exact hd.elim
  | readData _ _ _ comm | writeData _ _ comm =>
    cases comm with
    | plain => exact .inl rfl
    | cmac | encrypted => simp only [next]; split <;> simp
  | formatPicc | createApplication | createStdDataFile | getUid => simp only [next]; split <;> simp

section Exchange

variable (s : Option Session) (p : Option (UInt8 × Block × Block)) {e : CardEvent}
  (es : List CardEvent) (cmd : UInt8) (params : Bytes)

theorem exchange_lostRequest (hf : e.fate = .lostRequest) :
    SessionCard.exchange aes ⟨s, p, e :: es⟩ (apdu cmd params) = (.error .timeout, ⟨s, p, es⟩) := by
  simp [SessionCard.exchange, hf]

theorem exchange_lostReply (hf : e.fate = .lostReply) :
    SessionCard.exchange aes ⟨s, p, e :: es⟩ (apdu cmd params) =
      (.error .timeout, (SessionCard.execute aes e ⟨s, p, es⟩ cmd params).2) := by
  simp [SessionCard.exchange, hf]

theorem exchange_refused {st : UInt8} {h : st ≠ 0x00} (hf : e.fate = .refused st h) :
    SessionCard.exchange aes ⟨s, p, e :: es⟩ (apdu cmd params) =
      SessionCard.refuse st ⟨s, p, es⟩ cmd := by
  simp [SessionCard.exchange, hf]

theorem exchange_executed (hf : e.fate = .delivered) :
    SessionCard.exchange aes ⟨s, p, e :: es⟩ (apdu cmd params) =
      SessionCard.execute aes e ⟨s, p, es⟩ cmd params := by
  simp [SessionCard.exchange, hf]

end Exchange

theorem exchange_data (c : SessionCard) {cmd : UInt8} (params : Bytes)
    (hcmd : cmd ≠ 0x5A ∧ cmd ≠ 0x71 ∧ cmd ≠ 0xAF ∧ cmd ≠ 0xC4) :
    let r := SessionCard.exchange aes c (apdu cmd params)
    r.2.session = c.session ∧ (r.1 = .error .timeout ∨ ∃ e ∈ c.events.head?, r.1 = e.outcome) := by
  obtain ⟨h5A, h71, hAF, hC4⟩ := hcmd
  obtain ⟨s, p, _ | ⟨e, es⟩⟩ := c
  · exact ⟨rfl, .inl rfl⟩
  · cases hf : e.fate <;>
      simp [SessionCard.exchange, hf, CardEvent.outcome, SessionCard.execute, SessionCard.refuse, h5A,
        h71, hAF, hC4]

theorem SameSession.of_eq {w w' : World SessionCard} (h : SameSession w)
    (hs : w'.host.session = w.host.session ∨ w'.host.session = w.host.session.bump)
    (hc : w'.link.session = w.link.session) : SameSession w' := by
  intro ha
  rcases hs with hs | hs <;> rw [hs] at ha ⊢ <;> rw [hc] <;> exact h ha

theorem data_sameSession {op : Op} (hd : op.IsData) {w : World SessionCard} (hi : SameSession w)
    (hsafe : ∀ r, (r = .error .timeout ∨ ∃ e ∈ w.link.events.head?, r = e.outcome) →
      ¬ op.Overruns aes w.host r) :
    ∃ c, op.run aes (SessionCard.exchange aes) w = .ok c ∧ SameSession c.world := by
  cases hq : op.request aes w.host with
  | none =>
    obtain ⟨c, hc, -, hw⟩ := Op.run_of_no_request aes (SessionCard.exchange aes) op w hq
      (.error .timeout) (hsafe _ (.inl rfl))
    exact ⟨c, hc, by rw [hw]; exact hi⟩
  | some p =>
    obtain ⟨cmd, params⟩ := p
    have hna : ¬ op.IsAuth := fun h => by
      cases op with
      | authEv2First => exact hd
      | _ => exact h
    obtain ⟨hses, hres⟩ := exchange_data aes w.link params (Op.request_data aes hd hq)
    obtain ⟨c, hc, hs, -, hl⟩ := Op.run_of_request aes (SessionCard.exchange aes) op hna w hq
      (hsafe _ hres)
    refine ⟨c, hc, hi.of_eq ?_ (by rw [hl]; exact hses)⟩
    rw [hs]
    exact Op.next_data hd _ _

theorem SameSession.of_unauth {w : World SessionCard} (h : w.host.session.authenticated = false) :
    SameSession w := fun ha => absurd ha (by simp [h])

/-- Select, when the host learns of it. -/
theorem select_sameSession (aid : Aid) {w : World SessionCard} (hi : SameSession w)
    (hsafe : w.host.session.authenticated → ∀ e ∈ w.link.events.head?,
      e.fate = .lostRequest ∨ e.fate = .delivered) :
    SameSession (desfireSelectApplication (SessionCard.exchange aes) aid w).world := by
  obtain ⟨c, hc, hs, -, hl⟩ := Op.run_of_request aes (SessionCard.exchange aes)
    (.selectApplication aid) (fun h => h) w rfl (fun h => h)
  obtain rfl := Except.ok.inj hc
  cases hauth : w.host.session.authenticated with
  | false => exact .of_unauth (by rw [hs]; exact Op.next_unauth _ _ hauth)
  | true =>
    obtain ⟨host, s, p, _ | ⟨e, es⟩⟩ := w
    · exact hi.of_eq (.inl (by rw [hs]; rfl)) (by rw [hl]; rfl)
    · rcases hsafe hauth e rfl with hf | hf
      · rw [exchange_lostRequest aes s p es _ _ hf] at hs hl
        exact hi.of_eq (.inl (by rw [hs, Op.next_error])) (by rw [hl])
      · rw [exchange_executed aes s p es _ _ hf] at hs
        have hacc : (LinkResult.answer 0x00 []).accept [0x00] 0 = some (0x00, []) := by decide
        refine .of_unauth ?_
        rw [hs]
        simp [SessionCard.execute, Op.next, hacc]

/-- A ChangeKey of another key leaves the card's session alone, whatever becomes of the exchange. -/
theorem exchange_otherKey {s : Session} (p : Option (UInt8 × Block × Block)) (es : List CardEvent)
    {params : Bytes} (hne : params.getD 0 0 ≠ s.keyNo) :
    (SessionCard.exchange aes ⟨some s, p, es⟩ (apdu 0xC4 params)).2.session = some s := by
  obtain _ | ⟨e, es⟩ := es
  · rfl
  cases hf : e.fate with
  | lostRequest => rw [exchange_lostRequest aes (some s) p es _ _ hf]
  | lostReply =>
    rw [exchange_lostReply aes (some s) p es _ _ hf]
    simp only [SessionCard.execute, hne, ↓reduceIte]
    rfl
  | refused st h0 =>
    rw [exchange_refused aes (some s) p es _ _ hf]
    rfl
  | delivered =>
    rw [exchange_executed aes (some s) p es _ _ hf]
    simp only [SessionCard.execute, hne, ↓reduceIte]
    rfl

/-- ChangeKey, when the host learns of the end of its session. -/
theorem changeKey_sameSession (k : UInt8) (old new : Block) (ver : UInt8) {w : World SessionCard}
    (hi : SameSession w)
    (hsafe : k = w.host.session.keyNo → ∀ e ∈ w.link.events.head?, e.fate = .lostRequest ∨
      (∃ st h, e.fate = .refused st h) ∨ (e.fate = .delivered ∧ e.data.length ≤ 16)) :
    SameSession (desfireChangeKey aes (SessionCard.exchange aes) k old new ver w).world := by
  let op := Op.changeKey k old new ver
  cases hauth : w.host.session.authenticated with
  | false =>
    obtain ⟨c, hc, -, hw⟩ := Op.run_of_no_request aes (SessionCard.exchange aes) op w
      (by simp [op, Op.request, hauth]) (.error .timeout) (fun h => h)
    obtain rfl := Except.ok.inj hc
    rw [hw]
    exact hi
  | true =>
    obtain ⟨params, hq, hk⟩ : ∃ params, op.request aes w.host = some (0xC4, params) ∧
        params.getD 0 0 = k := by
      simp only [op, Op.request, hauth, ↓reduceIte]
      exact ⟨_, rfl, rfl⟩
    obtain ⟨c, hc, hs, -, hl⟩ := Op.run_of_request aes (SessionCard.exchange aes) op
      (fun h => h) w hq (fun h => h)
    obtain rfl := Except.ok.inj hc
    obtain ⟨s, hsome, hkey, -⟩ := hi hauth
    obtain ⟨host, s0, p, es⟩ := w
    obtain rfl : s0 = some s := hsome
    by_cases hsame : k = host.session.keyNo
    · obtain _ | ⟨e, es⟩ := es
      · exact hi.of_eq (.inl (by rw [hs]; exact Op.next_error op _ _)) (by rw [hl]; rfl)
      · rcases hsafe hsame e rfl with hf | ⟨st, h0, hf⟩ | ⟨hf, hlen⟩
        · rw [exchange_lostRequest aes (some s) p es _ _ hf] at hs hl
          exact hi.of_eq (.inl (by rw [hs, Op.next_error])) (by rw [hl])
        · rw [exchange_refused aes (some s) p es _ _ hf] at hs hl
          have hrej : (LinkResult.answer st []).accept [0x00] 16 = none :=
            accept_refused (by simpa using h0)
          exact hi.of_eq (.inl (by rw [hs]; simp [op, SessionCard.refuse, Op.next, hrej]))
            (by rw [hl]; simp [SessionCard.refuse])
        · rw [exchange_executed aes (some s) p es _ _ hf] at hs
          have hacc : (LinkResult.answer 0x00 e.data).accept [0x00] 16 = some (0x00, e.data) :=
            LinkResult.accept_eq_some.2 ⟨LinkResult.parse_answer _ (by omega), by simp, hlen⟩
          refine .of_unauth ?_
          rw [hs]
          simp [op, SessionCard.execute, Op.next, hacc, hsame]
    · have hne : params.getD 0 0 ≠ s.keyNo := by rw [hk, hkey]; exact hsame
      have hcard := exchange_otherKey aes p es hne
      refine hi.of_eq ?_ (by rw [hl]; exact hcard)
      rw [hs]
      simp only [op, Op.next, beq_iff_eq, hsame, ↓reduceIte]
      split <;> simp

theorem authReply1_answer_nil (st : UInt8) : authReply1 (.answer st []) = none := by
  by_cases h : st = 0xAF
  · subst h
    decide
  · have hrej : (LinkResult.answer st []).accept [0xAF] 64 = none := accept_refused (by simpa using h)
    simp [authReply1, hrej]

theorem authReply2_answer_nil {key rndA eRndB : Block} {st : UInt8} (h : st ≠ 0x00) :
    authReply2 aes key rndA eRndB (.answer st []) = none := by
  have hrej : (LinkResult.answer st []).accept [0x00] 64 = none := accept_refused (by simpa using h)
  simp [authReply2, hrej]

section Handshake

variable {keyNo : UInt8} {key rndA : Block} {host : Host} {s : Option Session}
  {p : Option (UInt8 × Block × Block)} {e1 : CardEvent} {es : List CardEvent}

/-- Step 1 delivered: the card's session is over and the handshake is under way. -/
theorem exchange_step1 (keyNo : UInt8) (s : Option Session) (p : Option (UInt8 × Block × Block))
    (es : List CardEvent) (hf : e1.fate = .delivered) :
    SessionCard.exchange aes ⟨s, p, e1 :: es⟩ (apdu 0x71 [keyNo, 0x00, 0x00]) =
      (.answer 0xAF (cardChallenge aes e1.key e1.rndB).toList,
        ⟨none, some (keyNo, e1.key, e1.rndB), es⟩) := by
  rw [exchange_executed aes s p es _ _ hf]
  rfl

/-- Both steps delivered, to a card with the host's key: both sides open the same session. -/
theorem auth_bothDelivered (keyNo : UInt8) (rndA : Block) (host : Host) (s : Option Session)
    (p : Option (UInt8 × Block × Block)) (es : List CardEvent) {e2 : CardEvent}
    (hf1 : e1.fate = .delivered) (hf2 : e2.fate = .delivered) (hkey : key = e1.key) :
    let w' := (desfireAuthEv2First aes (SessionCard.exchange aes) keyNo key rndA
      ⟨host, s, p, e1 :: e2 :: es⟩).world
    w'.host.session = cardSession aes key rndA e1.rndB keyNo e2.ti ∧
      w'.link.session = some w'.host.session := by
  subst hkey
  have hx2 : SessionCard.exchange aes ⟨none, some (keyNo, e1.key, e1.rndB), e2 :: es⟩
      (apdu 0xAF (authChallenge aes e1.key rndA (cardChallenge aes e1.key e1.rndB) e1.rndB)) =
        (.answer 0x00 (cardAnswer aes e1.key rndA e2.ti e2.caps
          (authChallenge aes e1.key rndA (cardChallenge aes e1.key e1.rndB) e1.rndB)),
          ⟨some (cardSession aes e1.key rndA e1.rndB keyNo e2.ti), none, es⟩) := by
    rw [exchange_executed aes none _ es _ _ hf2]
    simp [SessionCard.execute]
  obtain ⟨-, hs, -, hl⟩ := auth_honest aes e1.key rndA e1.rndB (SessionCard.exchange aes) keyNo e2.ti
    e2.caps ⟨host, s, p, e1 :: e2 :: es⟩ (exchange_step1 aes keyNo s p _ hf1) hx2
  exact ⟨hs, by rw [hs, hl]⟩

/-- Step 2 not delivered, or to a card that turns the reply down: the host fails. -/
theorem auth_step2Failed (keyNo : UInt8) (host : Host) (s : Option Session)
    (p : Option (UInt8 × Block × Block)) (hf1 : e1.fate = .delivered)
    (h2 : ∀ e2 ∈ es.head?, e2.fate = .delivered →
      cardCheck aes e1.key e1.rndB (hostReply aes key rndA e1) = none) :
    (desfireAuthEv2First aes (SessionCard.exchange aes) keyNo key rndA
      ⟨host, s, p, e1 :: es⟩).world.host.session = host.session := by
  have hx1 := exchange_step1 aes keyNo s p es hf1
  have h1 : authReply1 (SessionCard.exchange aes ⟨s, p, e1 :: es⟩
      (apdu 0x71 [keyNo, 0x00, 0x00])).1 = some (cardChallenge aes e1.key e1.rndB) := by
    rw [hx1, authReply1_cardChallenge]
  refine (auth_fail2 aes (SessionCard.exchange aes) keyNo key rndA ⟨host, s, p, e1 :: es⟩ h1 ?_).2.1
  rw [hx1]
  obtain _ | ⟨e2, es⟩ := es
  · rfl
  · cases hf : e2.fate with
    | lostRequest => rw [exchange_lostRequest aes none _ es _ _ hf]; rfl
    | lostReply => rw [exchange_lostReply aes none _ es _ _ hf]; rfl
    | refused st h0 =>
      rw [exchange_refused aes none _ es _ _ hf]
      exact authReply2_answer_nil aes h0
    | delivered =>
      have hcheck := h2 e2 rfl hf
      unfold hostReply at hcheck
      rw [exchange_executed aes none _ es _ _ hf]
      simp only [SessionCard.execute, show (0xAF : UInt8) ≠ 0x5A by decide,
        show (0xAF : UInt8) ≠ 0x71 by decide, ↓reduceIte, hcheck]
      exact authReply2_answer_nil aes (by decide)

/-- The handshake, when it fails before the card begins it or completes on both sides. -/
theorem auth_sameSession (keyNo : UInt8) (key rndA : Block) {w : World SessionCard}
    (hi : SameSession w)
    (hsafe : HandshakeSafe aes w.host.session.authenticated key rndA w.link.events) :
    SameSession (desfireAuthEv2First aes (SessionCard.exchange aes) keyNo key rndA w).world := by
  obtain ⟨host, s, p, _ | ⟨e1, es⟩⟩ := w
  · obtain ⟨-, hs, -, hl⟩ := auth_fail1 aes (SessionCard.exchange aes) keyNo key rndA
      ⟨host, s, p, []⟩ rfl
    exact hi.of_eq (.inl hs) (by rw [hl]; rfl)
  obtain ⟨hwrong, hlive⟩ := hsafe
  have hfail1 := auth_fail1 aes (SessionCard.exchange aes) keyNo key rndA ⟨host, s, p, e1 :: es⟩
  cases hf1 : e1.fate with
  | lostRequest =>
    rw [exchange_lostRequest aes s p es _ _ hf1] at hfail1
    obtain ⟨-, hs, -, hl⟩ := hfail1 rfl
    exact hi.of_eq (.inl hs) (by rw [hl])
  | refused st h0 =>
    rw [exchange_refused aes s p es _ _ hf1] at hfail1
    obtain ⟨-, hs, -, hl⟩ := hfail1 (authReply1_answer_nil st)
    exact hi.of_eq (.inl hs) (by rw [hl]; rfl)
  | lostReply =>
    rw [exchange_lostReply aes s p es _ _ hf1] at hfail1
    obtain ⟨-, hs, -, -⟩ := hfail1 rfl
    refine .of_unauth ?_
    rw [hs]
    by_contra hauth
    rw [Bool.not_eq_false] at hauth
    simpa [hf1] using hlive hauth
  | delivered =>
    by_cases hok : key = e1.key ∧ ∃ e2 ∈ es.head?, e2.fate = .delivered
    · obtain ⟨hkey, e2, he2, hf2⟩ := hok
      obtain _ | ⟨e2', es⟩ := es
      · cases he2
      · obtain rfl : e2' = e2 := Option.some.inj he2
        obtain ⟨-, hl⟩ := auth_bothDelivered aes keyNo rndA host s p es hf1 hf2 hkey
        exact fun _ => ⟨_, hl, rfl, rfl, rfl, rfl⟩
    · have hs := auth_step2Failed aes keyNo host s p hf1
        fun e2 he2 hf2 => hwrong fun hkey => hok ⟨hkey, e2, he2, hf2⟩
      refine .of_unauth ?_
      rw [hs]
      by_contra hauth
      rw [Bool.not_eq_false] at hauth
      rcases hlive hauth with h | ⟨st, h0, h⟩ | ⟨-, h⟩
      · rw [hf1] at h; cases h
      · rw [hf1] at h; cases h
      · exact hok h

end Handshake

theorem sessionStep_sameSession {a : SessionAction} {w : World SessionCard}
    (hsafe : SessionSafe aes a w) (hi : SameSession w) :
    ∃ w', sessionStep aes a w = .ok w' ∧ SameSession w' := by
  obtain ⟨op, es⟩ := a
  obtain ⟨host, s, p, es0⟩ := w
  have hi' : SameSession ⟨host, s, p, es⟩ := hi
  have hdata (hd : op.IsData) (h : ∀ r, (r = .error .timeout ∨ ∃ e ∈ es.head?, r = e.outcome) →
      ¬ op.Overruns aes host r) :
      ∃ w', sessionStep aes (op, es) ⟨host, s, p, es0⟩ = .ok w' ∧ SameSession w' := by
    obtain ⟨c, hc, hs⟩ := data_sameSession aes hd hi' h
    exact ⟨c.world, by rw [sessionStep, hc]; rfl, hs⟩
  cases op with
  | selectApplication aid => exact ⟨_, rfl, select_sameSession aes aid hi' hsafe⟩
  | authEv2First keyNo key rndA => exact ⟨_, rfl, auth_sameSession aes keyNo key rndA hi' hsafe⟩
  | changeKey k old new ver => exact ⟨_, rfl, changeKey_sameSession aes k old new ver hi' hsafe⟩
  | formatPicc | createApplication | createStdDataFile | readData | writeData | getUid =>
    exact hdata trivial hsafe

/-- Along every run whose actions meet `SessionSafe`, a session the host marks as live is the card's
session. -/
theorem flagTrue_along (as : List SessionAction) (w : World SessionCard) (hw : SameSession w)
    (hsafe : Guarded (sessionStep aes) (SessionSafe aes) as w) :
    Along (sessionStep aes) FlagTrue as w :=
  Along.of_guarded (fun _ h => h.flagTrue) (fun _ _ hc hi => sessionStep_sameSession aes hc hi) as w hw
    hsafe

/-! ### Fixed runs -/

def zeroEvent (fate : Fate) : CardEvent :=
  ⟨fate, .zero, .zero, .replicate 4 0, .replicate 12 0, [], .error .timeout⟩

def zeroHandshake (fates : List Fate) : SessionAction :=
  (.authEv2First 0 .zero .zero, fates.map zeroEvent)

def powerUp : World SessionCard := ⟨desfireInit, ⟨none, none, []⟩⟩

theorem flagTrue_along_sample :
    Along (sessionStep Aes128.aes128) FlagTrue
      [zeroHandshake [.delivered, .delivered], (.selectApplication (.replicate 3 0),
        [zeroEvent .delivered])] powerUp :=
  flagTrue_along Aes128.aes128 _ _ (.of_unauth rfl)
    ⟨⟨fun h => absurd rfl h, fun h => nomatch h⟩, fun _ _ =>
      ⟨fun _ e he => .inr (by obtain rfl := Option.some.inj he; rfl), fun _ _ => trivial⟩⟩

theorem handshake_delivered (aes : Aes) (w : World SessionCard) :
    ∃ w', sessionStep aes (zeroHandshake [.delivered, .delivered]) w = .ok w' ∧
      w'.host.session.authenticated = true := by
  have hd : (zeroEvent .delivered).fate = .delivered := rfl
  have hkey : Block.zero = (zeroEvent .delivered).key := rfl
  have h := (auth_bothDelivered aes 0 .zero w.host w.link.session w.link.pending [] hd hd hkey).1
  refine ⟨(desfireAuthEv2First aes (SessionCard.exchange aes) 0 .zero .zero ⟨w.host,
    ⟨w.link.session, w.link.pending, [zeroEvent .delivered, zeroEvent .delivered]⟩⟩).world, rfl, ?_⟩
  rw [h]
  rfl

theorem handshake_lostReply (aes : Aes) (w : World SessionCard) :
    ∃ w', sessionStep aes (zeroHandshake [.lostReply]) w = .ok w' ∧
      w'.host.session = w.host.session ∧ w'.link.session = none := by
  have h := auth_fail1 aes (SessionCard.exchange aes) 0 .zero .zero
    ⟨w.host, ⟨w.link.session, w.link.pending, [zeroEvent .lostReply]⟩⟩
  rw [exchange_lostReply aes _ _ [] _ _ rfl] at h
  obtain ⟨-, hs, -, hl⟩ := h rfl
  refine ⟨(desfireAuthEv2First aes (SessionCard.exchange aes) 0 .zero .zero ⟨w.host,
    ⟨w.link.session, w.link.pending, [zeroEvent .lostReply]⟩⟩).world, rfl, hs, ?_⟩
  rw [hl]
  rfl

/-- A second handshake whose first answer is lost: the card has ended its session, the host still
marks it as live. -/
theorem lostReply_not_flagTrue :
    ∃ w1 w2, sessionStep Aes128.aes128 (zeroHandshake [.delivered, .delivered]) powerUp = .ok w1 ∧
      sessionStep Aes128.aes128 (zeroHandshake [.lostReply]) w1 = .ok w2 ∧ ¬ FlagTrue w2 := by
  obtain ⟨w1, h1, hauth⟩ := handshake_delivered Aes128.aes128 powerUp
  obtain ⟨w2, h2, hs, hl⟩ := handshake_lostReply Aes128.aes128 w1
  refine ⟨w1, w2, h1, h2, fun hflag => ?_⟩
  obtain ⟨s, hsome, -⟩ := hflag (by rw [hs]; exact hauth)
  rw [hl] at hsome
  cases hsome

end LeafReader
