import Mathlib.Data.List.Basic

/-!
# Bounded queues that lose what they cannot take

A FIFO of a fixed capacity, and the account of one consumer: what was offered to the queue, what was taken
out of it, and how much was lost. What was taken, followed by what is queued, is what was offered less the
lost items, in order.
-/

namespace LeafReader

variable {α : Type*} {cap : ℕ}

structure Fifo (α : Type*) (cap : ℕ) where
  items : List α
  fits : items.length ≤ cap
deriving DecidableEq

namespace Fifo

def empty : Fifo α cap := ⟨[], Nat.zero_le cap⟩

/-- The queue with `a` at its end; `none` when it is full. -/
def send (q : Fifo α cap) (a : α) : Option (Fifo α cap) :=
  if h : q.items.length < cap then some ⟨q.items ++ [a], by rw [List.length_append]; exact h⟩ else none

/-- The oldest item and the rest of the queue. -/
def receive (q : Fifo α cap) : Option (α × Fifo α cap) :=
  match q with
  | ⟨[], _⟩ => none
  | ⟨a :: rest, h⟩ => some (a, ⟨rest, Nat.le_of_succ_le h⟩)

theorem send_of_room {q : Fifo α cap} (h : q.items.length < cap) (a : α) :
    ∃ q', q.send a = some q' ∧ q'.items = q.items ++ [a] := ⟨_, dif_pos h, rfl⟩

theorem send_of_full {q : Fifo α cap} (h : q.items.length = cap) (a : α) : q.send a = none :=
  dif_neg (by rw [h]; exact Nat.lt_irrefl cap)

theorem items_of_send {q q' : Fifo α cap} {a : α} (h : q.send a = some q') :
    q'.items = q.items ++ [a] := by
  unfold send at h
  split at h
  · cases h
    rfl
  · cases h

theorem items_of_receive {q q' : Fifo α cap} {a : α} (h : q.receive = some (a, q')) :
    q.items = a :: q'.items := by
  obtain ⟨_ | ⟨b, rest⟩, hfits⟩ := q
  · cases h
  · cases h
    rfl

end Fifo

/-- What was offered to a queue, and what was taken out of it. -/
structure Ledger (α : Type*) where
  posted : List α
  received : List α

namespace Ledger

def new : Ledger α := ⟨[], []⟩

def post (l : Ledger α) (a : α) : Ledger α := { l with posted := l.posted ++ [a] }

def receive (l : Ledger α) (a : α) : Ledger α := { l with received := l.received ++ [a] }

/-- With `queued` in the queue, `lost` of the items offered are missing, and the others are there in
order, each once. -/
structure Accounts (l : Ledger α) (queued : List α) (lost : ℕ) : Prop where
  sublist : (l.received ++ queued).Sublist l.posted
  length : l.posted.length = (l.received ++ queued).length + lost

namespace Accounts

variable {l : Ledger α} {queued : List α} {lost : ℕ}

theorem new : (new : Ledger α).Accounts [] 0 := ⟨List.Sublist.refl [], rfl⟩

theorem send (h : l.Accounts queued lost) (a : α) : (l.post a).Accounts (queued ++ [a]) lost := by
  refine ⟨?_, ?_⟩
  · show (l.received ++ (queued ++ [a])).Sublist (l.posted ++ [a])
    rw [← List.append_assoc]
    exact h.sublist.append_right [a]
  · have hlen := h.length
    simp only [post, List.length_append, List.length_singleton] at hlen ⊢
    omega

theorem drop (h : l.Accounts queued lost) (a : α) : (l.post a).Accounts queued (lost + 1) := by
  refine ⟨h.sublist.trans (List.sublist_append_left l.posted [a]), ?_⟩
  have hlen := h.length
  simp only [post, List.length_append, List.length_singleton] at hlen ⊢
  omega

theorem receive {a : α} (h : l.Accounts (a :: queued) lost) : (l.receive a).Accounts queued lost := by
  have heq : l.received ++ a :: queued = (l.receive a).received ++ queued := by
    simp [Ledger.receive]
  exact ⟨heq ▸ h.sublist, heq ▸ h.length⟩

/-- The items lost are those offered less those taken or queued. -/
theorem lost_eq (h : l.Accounts queued lost) :
    lost = l.posted.length - (l.received.length + queued.length) := by
  have hlen := h.length
  rw [List.length_append] at hlen
  omega

end Accounts

end Ledger

end LeafReader
