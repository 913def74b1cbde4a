import LeafReader.Fifo
import LeafReader.ReaderMode

/-!
# The event bus (`mode_controller.c`)

Up to four subscribers with a queue each, and `mode_post_event`, which offers an event to every
queue and counts those that are full. A run is a sequence of subscriptions, posts and receives; the
ledgers beside the bus say what was posted since a subscription and what its consumer received.
-/

namespace LeafReader

/-! ### The bus -/

def maxSubscribers : Nat := 4

/-- `subscriber_t`. -/
structure Subscriber where
  q : Fifo ReaderEvent 8
  name : Option String
  drops : UInt32

/-- The first `s_sub_count` entries of `s_subs`. -/
structure EventBus where
  subs : List Subscriber
  fits : subs.length ≤ maxSubscribers

namespace EventBus

/-- After `mode_init`. -/
def init : EventBus := ⟨[], Nat.zero_le _⟩

/-- `mode_subscribe`: the handle, an index into `s_subs`, if it is not NULL. `created` says whether
`xQueueCreate` has the memory for a queue. -/
def modeSubscribe (name : Option String) (created : Bool) (b : EventBus) : Option Nat × EventBus :=
  if h : maxSubscribers ≤ b.subs.length then (none, b)
  else if created then
    (some b.subs.length,
      ⟨b.subs ++ [⟨.empty, name, 0⟩], by rw [List.length_append]; exact Nat.lt_of_not_le h⟩)
  else (none, b)

/-- One turn of the loop of `mode_post_event`. -/
def offer (e : ReaderEvent) (s : Subscriber) : Subscriber :=
  match s.q.send e with
  | some q => { s with q := q }
  | none => { s with drops := s.drops + 1 }

def modePostEvent (e : ReaderEvent) (b : EventBus) : EventBus :=
  ⟨b.subs.map (offer e), by rw [List.length_map]; exact b.fits⟩

/-- `xQueueReceive` of the consumer with handle `i`; it waits while its queue is empty. -/
def receive (i : Nat) (b : EventBus) : Option ReaderEvent × EventBus :=
  match b.subs[i]? with
  | none => (none, b)
  | some s =>
    match s.q.receive with
    | none => (none, b)
    | some (e, q) => (some e, ⟨b.subs.set i { s with q := q }, by rw [List.length_set]; exact b.fits⟩)

end EventBus

/-! ### Runs -/

inductive BusOp
  | subscribe (name : Option String) (created : Bool)
  | post (e : ReaderEvent)
  | receive (i : Nat)

/-- The bus, and the ledger of each subscriber. -/
structure BusRun where
  bus : EventBus
  ledgers : List (Ledger ReaderEvent)

namespace BusRun

def init : BusRun := ⟨.init, []⟩

def step (r : BusRun) : BusOp → BusRun
  | .subscribe name created =>
    let (handle, bus) := r.bus.modeSubscribe name created
    ⟨bus, if handle.isSome then r.ledgers ++ [.new] else r.ledgers⟩
  | .post e => ⟨r.bus.modePostEvent e, r.ledgers.map (·.post e)⟩
  | .receive i =>
    let (received, bus) := r.bus.receive i
    ⟨bus, match received with
      | none => r.ledgers
      | some e => r.ledgers.modify i (·.receive e)⟩

def run (ops : List BusOp) (r : BusRun) : BusRun := ops.foldl step r

/-- The subscriber's queue and its ledger account for all that was posted, with its drops for what is
missing. -/
def Balanced (s : Subscriber) (l : Ledger ReaderEvent) : Prop :=
  ∃ lost, l.Accounts s.q.items lost ∧ s.drops = UInt32.ofNat lost

theorem Balanced.offer {s : Subscriber} {l : Ledger ReaderEvent} (h : Balanced s l) (e : ReaderEvent) :
    Balanced (EventBus.offer e s) (l.post e) := by
  obtain ⟨lost, hl, hd⟩ := h
  unfold EventBus.offer
  cases hq : s.q.send e with
  | some q => exact ⟨lost, by rw [Fifo.items_of_send hq]; exact hl.send e, hd⟩
  | none => exact ⟨lost + 1, hl.drop e, by simp [hd]⟩

theorem Balanced.receive {s : Subscriber} {l : Ledger ReaderEvent} (h : Balanced s l) {e : ReaderEvent}
    {q : Fifo ReaderEvent 8} (hq : s.q.receive = some (e, q)) :
    Balanced { s with q := q } (l.receive e) := by
  obtain ⟨lost, hl, hd⟩ := h
  rw [Fifo.items_of_receive hq] at hl
  exact ⟨lost, hl.receive, hd⟩

/-- Every subscriber has a ledger, and the two are balanced. -/
structure Inv (r : BusRun) : Prop where
  length : r.ledgers.length = r.bus.subs.length
  balanced : ∀ (i : Nat) s l, r.bus.subs[i]? = some s → r.ledgers[i]? = some l → Balanced s l

namespace Inv

variable {r : BusRun}

theorem init : BusRun.init.Inv := ⟨rfl, nofun⟩

theorem subscribe (h : r.Inv) (name : Option String) (created : Bool) :
    (r.step (.subscribe name created)).Inv := by
  simp only [step, EventBus.modeSubscribe]
  split
  · exact h
  split
  swap
  · exact h
  refine ⟨by simp [h.length], fun i s l hs hl => ?_⟩
  simp only [Option.isSome_some, ↓reduceIte] at hs hl
  rcases Nat.lt_trichotomy i r.bus.subs.length with hi | hi | hi
  · rw [List.getElem?_append_left hi] at hs
    rw [List.getElem?_append_left (by rw [h.length]; exact hi)] at hl
    exact h.balanced i s l hs hl
  · -- the new subscriber
    subst hi
    rw [List.getElem?_concat_length] at hs
    rw [← h.length, List.getElem?_concat_length] at hl
    cases hs
    cases hl
    exact ⟨0, .new, rfl⟩
  · rw [List.getElem?_eq_none (by simp; omega)] at hs
    cases hs

theorem post (h : r.Inv) (e : ReaderEvent) : (r.step (.post e)).Inv := by
  refine ⟨by simp [step, EventBus.modePostEvent, h.length], fun i s l hs hl => ?_⟩
  simp only [step, EventBus.modePostEvent, List.getElem?_map, Option.map_eq_some_iff] at hs hl
  obtain ⟨s, hs, rfl⟩ := hs
  obtain ⟨l, hl, rfl⟩ := hl
  exact (h.balanced i s l hs hl).offer e

theorem receive (h : r.Inv) (j : Nat) : (r.step (.receive j)).Inv := by
  simp only [step, EventBus.receive]
  cases hj : r.bus.subs[j]? with
  | none => exact h
  | some sj =>
    dsimp only
    cases hq : sj.q.receive with
    | none => exact h
    | some p =>
      obtain ⟨e, q⟩ := p
      refine ⟨by simp [h.length], fun i s l hs hl => ?_⟩
      dsimp only at hs hl
      by_cases hij : j = i
      · -- the consumer's own subscription
        subst hij
        rw [List.getElem?_set_self (List.getElem?_eq_some_iff.1 hj).1] at hs
        rw [List.getElem?_modify_eq] at hl
        obtain ⟨lj, hlj, rfl⟩ := Option.map_eq_some_iff.1 hl
        cases hs
        exact (h.balanced j sj lj hj hlj).receive hq
      · rw [List.getElem?_set_ne hij] at hs
        rw [List.getElem?_modify_ne _ _ hij] at hl
        exact h.balanced i s l hs hl

theorem step (h : r.Inv) (op : BusOp) : (r.step op).Inv := by
  cases op with
  | subscribe name created => exact h.subscribe name created
  | post e => exact h.post e
  | receive i => exact h.receive i

theorem run (ops : List BusOp) (h : r.Inv) : (r.run ops).Inv := by
  induction ops generalizing r with
  | nil => exact h
  | cons op ops ih => exact ih (h.step op)

end Inv

/-! ### Isolation -/

/-- Two runs with as many subscribers, whose subscriber `i` has the same queue, drops and ledger. -/
structure SameAt (i : Nat) (r r' : BusRun) : Prop where
  count : r.bus.subs.length = r'.bus.subs.length
  ledgers : r.ledgers.length = r'.ledgers.length
  sub : r.bus.subs[i]? = r'.bus.subs[i]?
  ledger : r.ledgers[i]? = r'.ledgers[i]?

/-- All operations but the receives of the other consumers. -/
def concerns (i : Nat) : BusOp → Bool
  | .receive j => j == i
  | .subscribe .. | .post _ => true

namespace SameAt

variable {i : Nat} {r r' r'' : BusRun}

theorem refl (r : BusRun) : SameAt i r r := ⟨rfl, rfl, rfl, rfl⟩

theorem trans (h : SameAt i r r') (h' : SameAt i r' r'') : SameAt i r r'' :=
  ⟨h.count.trans h'.count, h.ledgers.trans h'.ledgers, h.sub.trans h'.sub, h.ledger.trans h'.ledger⟩

theorem symm (h : SameAt i r r') : SameAt i r' r :=
  ⟨h.count.symm, h.ledgers.symm, h.sub.symm, h.ledger.symm⟩

theorem getElem?_concat {α : Type} {l l' : List α} (hlen : l.length = l'.length) (h : l[i]? = l'[i]?)
    (a : α) : (l ++ [a])[i]? = (l' ++ [a])[i]? := by
  rw [List.getElem?_append, List.getElem?_append, hlen, h]

/-- What concerns subscriber `i` does the same to it in both runs. -/
theorem step (h : SameAt i r r') {op : BusOp} (hop : concerns i op) :
    SameAt i (r.step op) (r'.step op) := by
  cases op with
  | subscribe name created =>
    simp only [BusRun.step, EventBus.modeSubscribe, h.count]
    split
    · exact ⟨h.count, h.ledgers, h.sub, h.ledger⟩
    split
    · exact ⟨by simp [h.count], by simp [h.ledgers], getElem?_concat h.count h.sub _,
        getElem?_concat h.ledgers h.ledger _⟩
    · exact ⟨h.count, h.ledgers, h.sub, h.ledger⟩
  | post e =>
    simp only [BusRun.step, EventBus.modePostEvent]
    exact ⟨by simp [h.count], by simp [h.ledgers], by simp [h.sub], by simp [h.ledger]⟩
  | receive j =>
    obtain rfl : j = i := by simpa [concerns] using hop
    simp only [BusRun.step, EventBus.receive, ← h.sub]
    cases hj : r.bus.subs[j]? with
    | none => exact h
    | some s =>
      dsimp only
      cases s.q.receive with
      | none => exact h
      | some p =>
        have hlt := (List.getElem?_eq_some_iff.1 hj).1
        refine ⟨by simp [h.count], by simp [h.ledgers], ?_, ?_⟩
        · dsimp only
          rw [List.getElem?_set_self hlt, List.getElem?_set_self (h.count ▸ hlt)]
        · dsimp only
          rw [List.getElem?_modify_eq, List.getElem?_modify_eq, h.ledger]

/-- A receive of another consumer leaves subscriber `i` as it is. -/
theorem of_other {op : BusOp} (hop : concerns i op = false) : SameAt i (r.step op) r := by
  cases op with
  | subscribe name created => cases hop
  | post e => cases hop
  | receive j =>
    have hji : j ≠ i := by simpa [concerns] using hop
    simp only [BusRun.step, EventBus.receive]
    cases r.bus.subs[j]? with
    | none => exact refl r
    | some s =>
      dsimp only
      cases s.q.receive with
      | none => exact refl r
      | some p =>
        refine ⟨by simp, by simp, ?_, ?_⟩
        · dsimp only
          rw [List.getElem?_set_ne hji]
        · dsimp only
          rw [List.getElem?_modify_ne _ _ hji]

/-- The other consumers' receives can be left out of a run. -/
theorem run_filter (ops : List BusOp) (h : SameAt i r r') :
    SameAt i (r.run ops) (r'.run (ops.filter (concerns i))) := by
  induction ops generalizing r r' with
  | nil => exact h
  | cons op ops ih =>
    cases hop : concerns i op with
    | true =>
      rw [List.filter_cons_of_pos hop]
      exact ih (h.step hop)
    | false =>
      rw [List.filter_cons_of_neg (by simp [hop])]
      exact ih ((of_other hop).trans h)

end SameAt

end BusRun

/-! ### The contract -/

/-- `s'` is the subscriber `s` after a post of `e`: it has the event if its queue had room, and a
drop more only if the queue was full. -/
structure Offered (e : ReaderEvent) (s s' : Subscriber) : Prop where
  queued : s.q.items.length < 8 → s'.q.items = s.q.items ++ [e] ∧ s'.drops = s.drops
  dropped : s.q.items.length = 8 → s' = { s with drops := s.drops + 1 }

theorem offered_offer (e : ReaderEvent) (s : Subscriber) : Offered e s (EventBus.offer e s) := by
  refine ⟨fun hroom => ?_, fun hfull => ?_⟩
  · obtain ⟨q, hq, hitems⟩ := Fifo.send_of_room hroom e
    simp only [EventBus.offer, hq]
    exact ⟨hitems, trivial⟩
  · simp only [EventBus.offer, Fifo.send_of_full hfull]

/-- In every run, what a subscriber received, followed by what it has queued, is what was posted
since it subscribed less some events, in order, and as many are missing as its counter says. An
event posted reaches every queue with room and is dropped only at a full one. Runs that differ in
the receives of other consumers only leave the subscriber the same; and a fifth subscription is
refused and changes nothing. -/
theorem event_bus_contract (ops : List BusOp) :
    (∀ (i : Nat) s, (BusRun.init.run ops).bus.subs[i]? = some s →
      ∃ l, (BusRun.init.run ops).ledgers[i]? = some l ∧ (l.received ++ s.q.items).Sublist l.posted ∧
        (l.posted.length - (l.received.length + s.q.items.length) < 2 ^ 32 →
          s.drops.toNat = l.posted.length - (l.received.length + s.q.items.length))) ∧
      (∀ (e : ReaderEvent) (i : Nat) s, (BusRun.init.run ops).bus.subs[i]? = some s →
        ∃ s', ((BusRun.init.run ops).bus.modePostEvent e).subs[i]? = some s' ∧ Offered e s s') ∧
      (∀ (i : Nat) (ops' : List BusOp), ops.filter (BusRun.concerns i) = ops'.filter (BusRun.concerns i) →
        BusRun.SameAt i (BusRun.init.run ops) (BusRun.init.run ops')) ∧
        ∀ (name : Option String) (created : Bool), (BusRun.init.run ops).bus.subs.length = 4 →
          (BusRun.init.run ops).bus.modeSubscribe name created = (none, (BusRun.init.run ops).bus) := by
  refine ⟨fun i s hs => ?_, fun e i s hs => ?_, fun i ops' hops => ?_, fun name created hfull => ?_⟩
  · have hinv := BusRun.Inv.init.run ops
    have hi : i < (BusRun.init.run ops).ledgers.length := by
      rw [hinv.length]
      exact (List.getElem?_eq_some_iff.1 hs).1
    obtain ⟨l, hl⟩ : ∃ l, (BusRun.init.run ops).ledgers[i]? = some l := ⟨_, List.getElem?_eq_getElem hi⟩
    obtain ⟨lost, hacc, hdrops⟩ := hinv.balanced i s l hs hl
    refine ⟨l, hl, hacc.sublist, fun hlt => ?_⟩
    rw [← hacc.lost_eq] at hlt ⊢
    rw [hdrops, UInt32.toNat_ofNat_of_lt' hlt]
  · refine ⟨_, ?_, offered_offer e s⟩
    rw [EventBus.modePostEvent, List.getElem?_map, hs, Option.map_some]
  · have h := BusRun.SameAt.run_filter ops (.refl (i := i) .init)
    have h' := BusRun.SameAt.run_filter ops' (.refl (i := i) .init)
    rw [hops] at h
    exact h.trans h'.symm
  · exact dif_pos (by rw [hfull]; exact Nat.le_refl 4)

end LeafReader
