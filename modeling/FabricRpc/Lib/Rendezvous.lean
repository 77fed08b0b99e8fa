import Mathlib.Data.List.Induction
import Mathlib.Data.List.Basic

namespace FabricRpc.Lib

-- The first-in first-out meeting of offers and takers: whoever finds nobody
-- of the other side waits, and the one who waited longest is met first.
structure Rendezvous (α β : Type*) where
  offers : List α
  takers : List β
  matched : List (β × α)

namespace Rendezvous

variable {α β : Type*}

def new : Rendezvous α β := ⟨[], [], []⟩

def offer (r : Rendezvous α β) (a : α) : Rendezvous α β :=
  match r.takers with
  | [] => { r with offers := r.offers ++ [a] }
  | b :: takers => { r with takers := takers, matched := r.matched ++ [(b, a)] }

def take (r : Rendezvous α β) (b : β) : Rendezvous α β :=
  match r.offers with
  | [] => { r with takers := r.takers ++ [b] }
  | a :: offers => { r with offers := offers, matched := r.matched ++ [(b, a)] }

def arrive (r : Rendezvous α β) : α ⊕ β → Rendezvous α β
  | .inl a => r.offer a
  | .inr b => r.take b

def meet (arrivals : List (α ⊕ β)) : Rendezvous α β := arrivals.foldl arrive new

@[simp] theorem meet_nil : meet ([] : List (α ⊕ β)) = new := rfl

@[simp] theorem meet_snoc (arrivals : List (α ⊕ β)) (arrival : α ⊕ β) :
    meet (arrivals ++ [arrival]) = (meet arrivals).arrive arrival := by
  simp [meet]

-- Everyone who arrived was matched or still waits, in the order of arrival,
-- and only one side waits.
structure Served (arrivals : List (α ⊕ β)) (r : Rendezvous α β) : Prop where
  offers : arrivals.filterMap Sum.getLeft? = r.matched.map Prod.snd ++ r.offers
  takers : arrivals.filterMap Sum.getRight? = r.matched.map Prod.fst ++ r.takers
  exclusive : r.offers = [] ∨ r.takers = []

theorem offer_served {arrivals : List (α ⊕ β)} {r : Rendezvous α β} (a : α)
    (h : Served arrivals r) : Served (arrivals ++ [.inl a]) (r.offer a) := by
  unfold offer
  split
  · rename_i ht
    refine ⟨?_, ?_, .inr ht⟩
    · simp [h.offers]
    · simp [h.takers]
  · rename_i b takers ht
    have ho : r.offers = [] := h.exclusive.resolve_right (by simp [ht])
    refine ⟨?_, ?_, .inl ho⟩
    · simp [h.offers, ho]
    · simp [h.takers, ht]

theorem take_served {arrivals : List (α ⊕ β)} {r : Rendezvous α β} (b : β)
    (h : Served arrivals r) : Served (arrivals ++ [.inr b]) (r.take b) := by
  unfold take
  split
  · rename_i ho
    refine ⟨?_, ?_, .inl ho⟩
    · simp [h.offers]
    · simp [h.takers]
  · rename_i a offers ho
    have ht : r.takers = [] := h.exclusive.resolve_left (by simp [ho])
    refine ⟨?_, ?_, .inr ht⟩
    · simp [h.offers, ho]
    · simp [h.takers, ht]

theorem meet_served (arrivals : List (α ⊕ β)) : Served arrivals (meet arrivals) := by
  induction arrivals using List.reverseRecOn with
  | nil => exact ⟨rfl, rfl, .inl rfl⟩
  | append_singleton arrivals arrival ih =>
      rw [meet_snoc]
      cases arrival with
      | inl a => exact offer_served a ih
      | inr b => exact take_served b ih

-- The side that waits is as long as the other side is short.
theorem Served.takers_length_le {arrivals : List (α ⊕ β)} {r : Rendezvous α β}
    (h : Served arrivals r) (n : ℕ)
    (hn : (arrivals.filterMap Sum.getRight?).length ≤
      (arrivals.filterMap Sum.getLeft?).length + n) : r.takers.length ≤ n := by
  rw [h.offers, h.takers] at hn
  simp only [List.length_append, List.length_map] at hn
  rcases h.exclusive with ho | ht
  · simp only [ho, List.length_nil] at hn
    omega
  · simp [ht]

theorem Served.offers_length_le {arrivals : List (α ⊕ β)} {r : Rendezvous α β}
    (h : Served arrivals r) (n : ℕ)
    (hn : (arrivals.filterMap Sum.getLeft?).length ≤
      (arrivals.filterMap Sum.getRight?).length + n) : r.offers.length ≤ n := by
  rw [h.offers, h.takers] at hn
  simp only [List.length_append, List.length_map] at hn
  rcases h.exclusive with ho | ht
  · simp [ho]
  · simp only [ht, List.length_nil] at hn
    omega

end Rendezvous

end FabricRpc.Lib
