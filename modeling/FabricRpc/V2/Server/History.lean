import FabricRpc.V2.Server
import FabricRpc.V2.ItemQueue.Conservation
import Mathlib.Algebra.BigOperators.Group.Finset.Piecewise
import Mathlib.Data.Finset.Image

namespace FabricRpc.V2.Server

variable {ι μ ψ : Type*}

-- What the transport has reported so far: the clients of all connects, the
-- number of the connect that each connected client is connected by, and the
-- requests, each with that number at its time.
structure History (ι μ ψ : Type*) where
  opened : List ι
  current : ι → Option ℕ
  posted : List (Option ℕ × Request ι μ ψ)

namespace History

def new : History ι μ ψ := ⟨[], fun _ => none, []⟩

def extend [DecidableEq ι] (h : History ι μ ψ) : ServerLabel ι μ ψ → History ι μ ψ
  | .processConnect clientId _ =>
      { h with
        opened := h.opened ++ [clientId]
        current := Function.update h.current clientId (some h.opened.length) }
  | .processDisconnect clientId _ =>
      { h with current := Function.update h.current clientId none }
  | .processRequest clientId message callback =>
      { h with posted := h.posted ++
          [(h.current clientId, ⟨clientId, message, callback, h.posted.length⟩)] }
  | _ => h

-- The requests posted during one incarnation of a client.
def postedTo (h : History ι μ ψ) (n : ℕ) : List (Request ι μ ψ) :=
  (h.posted.filter (·.1 = some n)).map Prod.snd

end History

def history [DecidableEq ι] (labels : List (ServerLabel ι μ ψ)) : History ι μ ψ :=
  labels.foldl History.extend .new

@[simp] theorem history_nil [DecidableEq ι] :
    history ([] : List (ServerLabel ι μ ψ)) = .new := rfl

@[simp] theorem history_snoc [DecidableEq ι] (labels : List (ServerLabel ι μ ψ))
    (label : ServerLabel ι μ ψ) : history (labels ++ [label]) = (history labels).extend label := by
  simp [history]

-- The transport connects a client that is not connected, and reports only
-- connected clients otherwise. Accepts on one object run one at a time.
def Contract [DecidableEq ι] (labels : List (ServerLabel ι μ ψ)) (s : Server ι μ ψ) :
    ServerLabel ι μ ψ → Prop
  | .processConnect clientId _ => (history labels).current clientId = none
  | .processDisconnect clientId _ => ((history labels).current clientId).isSome
  | .processRequest clientId _ _ => ((history labels).current clientId).isSome
  | .acceptConn step => AcceptNet.OneAtATime [] s.lobby (step.label ())
  | .accept c step => AcceptNet.OneAtATime [] s.net (step.label c)
  | .complete _ _ _ => True

-- A history that the contract allows.
structure History.Proper (h : History ι μ ψ) : Prop where
  current : ∀ id n, h.current id = some n → h.opened[n]? = some id
  posted : ∀ p ∈ h.posted, ∃ n, p.1 = some n ∧ h.opened[n]? = some p.2.connId
  numbered : h.posted.map (·.2.ctx) = List.range h.posted.length

namespace History

theorem new_proper : Proper (new : History ι μ ψ) where
  current := fun _ _ h => by simp [new] at h
  posted := fun _ h => by simp [new] at h
  numbered := rfl

theorem extend_proper [DecidableEq ι] {h : History ι μ ψ} {labels : List (ServerLabel ι μ ψ)}
    {s : Server ι μ ψ} {label : ServerLabel ι μ ψ} (hp : Proper h) (hlabels : history labels = h)
    (hallow : Contract labels s label) : Proper (h.extend label) := by
  have hkeep (id : ι) {n : ℕ} {other : ι} (hn : h.opened[n]? = some other) :
      (h.opened ++ [id])[n]? = some other := by
    rw [List.getElem?_append_left (List.getElem?_eq_some_iff.mp hn).1, hn]
  cases label with
  | processConnect clientId callback =>
      refine ⟨?_, ?_, hp.numbered⟩
      · intro id n hn
        by_cases hid : id = clientId
        · subst hid
          simp only [extend, Function.update_self, Option.some.injEq] at hn
          simp [extend, ← hn]
        · simp only [extend, Function.update_of_ne hid] at hn
          exact hkeep clientId (hp.current id n hn)
      · intro p hm
        obtain ⟨n, hn, hid⟩ := hp.posted p hm
        exact ⟨n, hn, hkeep clientId hid⟩
  | processDisconnect clientId callback =>
      refine ⟨?_, hp.posted, hp.numbered⟩
      intro id n hn
      by_cases hid : id = clientId
      · simp [extend, hid] at hn
      · simp only [extend, Function.update_of_ne hid] at hn
        exact hp.current id n hn
  | processRequest clientId message callback =>
      simp only [Contract, hlabels] at hallow
      obtain ⟨n, hn⟩ := Option.isSome_iff_exists.mp hallow
      refine ⟨hp.current, ?_, ?_⟩
      · intro p hm
        simp only [extend, List.mem_append, List.mem_singleton] at hm
        rcases hm with hm | rfl
        · exact hp.posted p hm
        · exact ⟨n, hn, hp.current clientId n hn⟩
      · simp [extend, hp.numbered, List.range_succ]
  | acceptConn step => exact hp
  | accept c step => exact hp
  | complete req hr replyMsg => exact hp

-- A request is found again by the number of its context.
theorem Proper.posted_ctx {h : History ι μ ψ} (hp : Proper h) {p : Option ℕ × Request ι μ ψ}
    (hm : p ∈ h.posted) : h.posted[p.2.ctx]? = some p := by
  obtain ⟨i, hi, rfl⟩ := List.mem_iff_getElem.mp hm
  have hlen : i < (h.posted.map (·.2.ctx)).length := by simpa using hi
  have hctx : (h.posted.map (·.2.ctx))[i] = i := by simp only [hp.numbered, List.getElem_range]
  simp only [List.getElem_map] at hctx
  rw [hctx, List.getElem?_eq_getElem hi]

-- No request is posted twice.
theorem Proper.nodup {h : History ι μ ψ} (hp : Proper h) : (h.posted.map Prod.snd).Nodup := by
  have hctx : ((h.posted.map Prod.snd).map Request.ctx).Nodup := by
    rw [List.map_map]
    exact hp.numbered ▸ List.nodup_range
  exact hctx.of_map

end History

-- A list splits into its parts by a key.
theorem coe_map_eq_sum_filter {α β κ : Type*} [DecidableEq κ] (key : α → κ) (value : α → β)
    (keys : Finset κ) (l : List α) (h : ∀ a ∈ l, key a ∈ keys) :
    (l.map value : Multiset β) =
      ∑ k ∈ keys, ((l.filter (key · = k)).map value : Multiset β) := by
  induction l with
  | nil => simp
  | cons a l ih =>
      have hsplit (k : κ) : (((a :: l).filter (key · = k)).map value : Multiset β) =
          (if key a = k then {value a} else 0) +
            ((l.filter (key · = k)).map value : Multiset β) := by
        by_cases hk : key a = k <;> simp [hk]
      have ih := ih fun b hb => h b (List.mem_cons_of_mem a hb)
      have ha : key a ∈ keys := h a List.mem_cons_self
      simp only [hsplit, Finset.sum_add_distrib, ← ih, Finset.sum_ite_eq, ha, if_true]
      simp

end FabricRpc.V2.Server
