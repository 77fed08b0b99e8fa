import FabricRpc.V2.System.Linked
import Mathlib.Algebra.Order.BigOperators.Group.Finset

namespace FabricRpc.V2

open Lib (Bytes)

theorem SendPhase.rank_le {κ : Type*} (phase : SendPhase κ) : phase.rank ≤ 4 := by
  cases phase <;> simp [SendPhase.rank]

theorem PrivateCallback.rank_le (callback : PrivateCallback) : callback.rank ≤ 2 := by
  unfold PrivateCallback.rank
  split <;> simp

-- Only async_send makes an operation.
theorem ClientConnection.exec_length {μ κ : Type*} {s s' : ClientConnection μ κ}
    {label : SendLabel μ κ} (hx : s.exec label = .ok s') :
    s'.ops.length = s.ops.length + if label.op = none then 1 else 0 := by
  cases label with
  | send req =>
      obtain rfl : s.asyncSend req = s' := Except.ok.inj hx
      simp [asyncSend, SendLabel.op]
  | begin i =>
      simp only [exec, begin] at hx
      split at hx
      · obtain rfl := Except.ok.inj hx
        simp [SendLabel.op]
      · split at hx
        · exact absurd hx (by simp)
        · obtain rfl := Except.ok.inj hx
          simp [SendLabel.op]
  | invoke c =>
      simp only [exec, invoke] at hx
      split at hx
      · exact absurd hx (by simp)
      · obtain rfl := Except.ok.inj hx
        simp [SendLabel.op]
  | release c =>
      obtain rfl := Except.ok.inj hx
      rfl
  | _ =>
      obtain rfl := Except.ok.inj hx
      simp [SendLabel.op]

namespace System

variable {κ σ : Type*} {Msg : σ → Type*} {pb : Protobuf σ Msg} {names : List Bytes}
  {s : System κ} {labels : List (SystemLabel κ)} {label : SystemLabel κ}

-- The steps that finish what was sent: those of the connections and the server,
-- and of the transport where it goes on with a call.
def Finishes : SystemLabel κ → Prop
  | .client _ (.send _) => False
  | .server (.server (.processConnect _ _)) => False
  | .server (.server (.processDisconnect _ _)) => False
  | .giveUp _ _ _ => False
  | _ => True

instance : DecidablePred (Finishes : SystemLabel κ → Prop) := fun label => by
  unfold Finishes
  split <;> infer_instance

-- The operation that a step of a connection belongs to, and the one whose call a
-- reply was taken for.
def operation : SystemLabel κ → Option (ℕ × ℕ)
  | .client j label => label.op.map fun i => (j, i)
  | _ => none

def answeredCall : SystemLabel κ → Option (ℕ × ℕ)
  | .answer j i _ => some (j, i)
  | _ => none

def Sends : SystemLabel κ → Prop
  | .client _ label => label.op = none
  | _ => False

instance : DecidablePred (Sends : SystemLabel κ → Prop) := fun label => by
  unfold Sends
  split <;> infer_instance

def sends (labels : List (SystemLabel κ)) : ℕ := labels.countP fun label => Sends label

-- How often a client was connected.
def connects (labels : List (SystemLabel κ)) : ℕ :=
  (Server.history (Serve.serverLabels (serveLabels labels))).opened.length

theorem exec_clients {next : System κ} (hx : exec pb s label = .ok next) :
    (∃ j l client, label = .client j l ∧ (s.clients j).exec l = .ok client ∧
      next = s.setClient j client) ∨ (∀ j l, label ≠ .client j l) ∧ next.clients = s.clients := by
  cases label with
  | client j l =>
      simp only [exec] at hx
      split at hx
      · exact absurd hx (by simp)
      · rename_i client hclient
        exact .inl ⟨j, l, client, rfl, hclient, (Except.ok.inj hx).symm⟩
  | server l =>
      simp only [exec] at hx
      split at hx
      · exact absurd hx (by simp)
      · obtain rfl := Except.ok.inj hx
        refine .inr ⟨by simp, ?_⟩
        unfold mark
        split <;> rfl
  | answer j i n =>
      simp only [exec, answer] at hx
      refine .inr ⟨by simp, ?_⟩
      split at hx
      · exact absurd hx (by simp)
      · obtain rfl := Except.ok.inj hx
        rfl
      · split at hx
        · exact absurd hx (by simp)
        · obtain rfl := Except.ok.inj hx
          rfl
  | giveUp j i hr =>
      obtain rfl := Except.ok.inj hx
      exact .inr ⟨by simp, rfl⟩

-- The operations of all clients are finitely many, one for each that was sent.
theorem run_made (hrun : (machine pb names).Run Carries new labels s) :
    ∃ made : Finset (ℕ × ℕ), (∀ j i, (j, i) ∈ made ↔ i < (s.clients j).ops.length) ∧
      made.card = sends labels := by
  apply hrun.invariant fun labels s => ∃ made : Finset (ℕ × ℕ),
    (∀ j i, (j, i) ∈ made ↔ i < (s.clients j).ops.length) ∧ made.card = sends labels
  · exact ⟨∅, by simp [new, ClientConnection.new], rfl⟩
  · rintro labels s label next ⟨made, hmade, hcard⟩ - - hx
    rcases exec_clients hx with ⟨j, l, client, rfl, hclient, rfl⟩ | ⟨hlabel, hclients⟩
    · have hlength := ClientConnection.exec_length hclient
      by_cases hsend : l.op = none
      · rw [if_pos hsend] at hlength
        refine ⟨insert (j, (s.clients j).ops.length) made, ?_, ?_⟩
        · intro k i
          by_cases hk : k = j
          · subst hk
            simp only [Finset.mem_insert, Prod.mk.injEq, true_and, hmade, setClient_self, hlength]
            omega
          · simp [hk, hmade, setClient_ne s client hk]
        · have hnew : (j, (s.clients j).ops.length) ∉ made := by simp [hmade]
          simp [Finset.card_insert_of_notMem hnew, hcard, sends, Sends, hsend]
      · rw [if_neg hsend] at hlength
        refine ⟨made, ?_, by simp [hcard, sends, Sends, hsend]⟩
        intro k i
        by_cases hk : k = j
        · subst hk
          rw [hmade, setClient_self, hlength, Nat.add_zero]
        · rw [hmade, setClient_ne s client hk]
    · have hnot : ¬Sends label := by
        cases label with
        | client j l => exact absurd rfl (hlabel j l)
        | _ => exact id
      refine ⟨made, ?_, by simp [hcard, sends, hnot]⟩
      rw [hclients]
      exact hmade

theorem Settled.setCall {j i k m : ℕ} (h : s.Settled j i) {transit : Transit}
    (htransit : (∃ reply, transit = .replied reply) ∨ ∃ hr, transit = .broken hr) :
    (s.setCall k m transit).Settled j i := by
  by_cases heq : (j, i) = (k, m)
  · obtain ⟨rfl, rfl⟩ := Prod.mk.inj heq
    simpa only [Settled, setCall_self] using htransit
  · simpa only [Settled, setCall_ne s transit heq] using h

-- A call that is settled stays so.
theorem exec_settled {next : System κ} {j i : ℕ} (h : s.Settled j i)
    (hallow : Carries labels s label) (hx : exec pb s label = .ok next) : next.Settled j i := by
  cases label with
  | client k l =>
      simp only [exec] at hx
      split at hx
      · exact absurd hx (by simp)
      · obtain rfl := Except.ok.inj hx
        exact h
  | server l =>
      simp only [exec] at hx
      split at hx
      · exact absurd hx (by simp)
      · rename_i serve _
        obtain rfl := Except.ok.inj hx
        cases l with
        | ends m svcs => exact h
        | server l =>
            cases l with
            | processRequest k message callback =>
                obtain ⟨-, rfl, hidle, -⟩ := hallow
                have hne : (j, i) ≠ callback := by
                  rintro rfl
                  rcases h with ⟨reply, hreply⟩ | ⟨hr, hbroken⟩
                  · exact absurd (hidle.symm.trans hreply) (by simp)
                  · exact absurd (hidle.symm.trans hbroken) (by simp)
                simpa only [Settled, mark, setCall_ne _ Transit.posted hne] using h
            | _ => exact h
  | answer k m n =>
      simp only [exec, answer] at hx
      split at hx
      · exact absurd hx (by simp)
      · obtain rfl := Except.ok.inj hx
        exact h.setCall (.inl ⟨_, rfl⟩)
      · split at hx
        · exact absurd hx (by simp)
        · obtain rfl := Except.ok.inj hx
          exact h.setCall (.inr ⟨_, rfl⟩)
  | giveUp k m hr =>
      obtain rfl := Except.ok.inj hx
      exact h.setCall (.inr ⟨hr, rfl⟩)

theorem answer_settled {next : System κ} {j i n : ℕ} (hx : s.answer j i n = .ok next) :
    next.Settled j i := by
  unfold answer at hx
  split at hx
  · exact absurd hx (by simp)
  · obtain rfl := Except.ok.inj hx
    exact .inl ⟨_, setCall_self s _⟩
  · split at hx
    · exact absurd hx (by simp)
    · obtain rfl := Except.ok.inj hx
      exact .inr ⟨_, setCall_self s _⟩

-- A reply is taken once.
theorem run_answered (hrun : (machine pb names).Run Carries new labels s) :
    (labels.filterMap answeredCall).Nodup ∧
      ∀ j i, (j, i) ∈ labels.filterMap answeredCall → s.Settled j i := by
  apply hrun.invariant fun labels s => (labels.filterMap answeredCall).Nodup ∧
    ∀ j i, (j, i) ∈ labels.filterMap answeredCall → s.Settled j i
  · exact ⟨List.nodup_nil, fun _ _ h => absurd h List.not_mem_nil⟩
  · rintro labels s label next ⟨honce, hsettled⟩ hallow - hx
    change exec pb s label = .ok next at hx
    rw [List.filterMap_append]
    cases hcall : answeredCall label with
    | none =>
        simp only [List.filterMap_cons, hcall, List.filterMap_nil]
        rw [List.append_nil]
        exact ⟨honce, fun j i hmem => exec_settled (hsettled j i hmem) hallow hx⟩
    | some call =>
        obtain ⟨j, i, n, rfl⟩ : ∃ j i n, label = .answer j i n := by
          cases label with
          | answer j i n => exact ⟨j, i, n, rfl⟩
          | _ => exact absurd hcall (by simp [answeredCall])
        obtain rfl : (j, i) = call := Option.some.inj hcall
        have hnew : (j, i) ∉ labels.filterMap answeredCall := by
          intro hmem
          rcases hsettled j i hmem with ⟨reply, hreply⟩ | ⟨hr, hbroken⟩
          · exact absurd (Eq.trans (Eq.symm hallow) hreply) (by simp)
          · exact absurd (Eq.trans (Eq.symm hallow) hbroken) (by simp)
        simp only [List.filterMap_cons, hcall, List.filterMap_nil]
        refine ⟨?_, ?_⟩
        · rw [List.nodup_append]
          refine ⟨honce, List.nodup_singleton _, ?_⟩
          rintro call hmem other hother rfl
          exact hnew (List.mem_singleton.mp hother ▸ hmem)
        · intro k m hmem
          rcases List.mem_append.mp hmem with hmem | hmem
          · exact exec_settled (hsettled k m hmem) hallow hx
          · obtain ⟨rfl, rfl⟩ := Prod.mk.inj (List.mem_singleton.mp hmem)
            exact answer_settled hx

theorem Linked.made_of_settled (h : Linked pb names labels s) {made : Finset (ℕ × ℕ)}
    (hmade : ∀ j i, (j, i) ∈ made ↔ i < (s.clients j).ops.length) {j i : ℕ}
    (hsettled : s.Settled j i) : (j, i) ∈ made := by
  have hne : s.calls j i ≠ .idle := by
    rcases hsettled with ⟨reply, hreply⟩ | ⟨hr, hbroken⟩
    · simp [hreply]
    · simp [hbroken]
  obtain ⟨op, hop, -⟩ := h.begun j i hne
  exact (hmade j i).mpr (List.getElem?_eq_some_iff.mp hop).1

-- The requests that were given to the server are of different operations.
theorem Linked.posted_le (h : Linked pb names labels s) {made : Finset (ℕ × ℕ)}
    (hmade : ∀ j i, (j, i) ∈ made ↔ i < (s.clients j).ops.length) :
    (posted labels).length ≤ made.card := by
  rw [← List.length_map Request.callback, ← List.toFinset_card_of_nodup h.once]
  apply Finset.card_le_card
  intro callback hcallback
  obtain ⟨req, hreq, rfl⟩ := List.mem_map.mp (List.mem_toFinset.mp hcallback)
  obtain ⟨hid, op, hop, -⟩ := h.sent req hreq
  rw [← hid] at hop
  exact (hmade _ _).mpr (List.getElem?_eq_some_iff.mp hop).1

-- An operation takes six steps at most.
theorem Linked.operations_le (h : Linked pb names labels s) {made : Finset (ℕ × ℕ)}
    (hmade : ∀ j i, (j, i) ∈ made ↔ i < (s.clients j).ops.length) :
    (labels.filterMap operation).length ≤ 6 * made.card := by
  have hcount (j i : ℕ) : (labels.filterMap operation).countP (fun call => call = (j, i)) =
      ((clientLabels j labels).filter (·.op = some i)).length := by
    rw [← List.countP_eq_length_filter, clientLabels, List.countP_filterMap, List.countP_filterMap]
    congr 1
    funext label
    cases label with
    | client k l => cases hop : l.op <;> by_cases hk : k = j <;> simp [operation, hop, hk]
    | _ => simp [operation]
  have hconcurrent (j : ℕ) := ClientConnection.run_concurrent (h.clients j)
  have hknown (j i : ℕ) (hmem : (j, i) ∈ labels.filterMap operation) :
      i < (s.clients j).ops.length := by
    obtain ⟨label, hlabel, hop⟩ := List.mem_filterMap.mp hmem
    cases label with
    | client k l =>
        obtain ⟨m, hm, heq⟩ := Option.map_eq_some_iff.mp hop
        obtain ⟨rfl, rfl⟩ := Prod.mk.inj heq
        exact (hconcurrent k).known l (mem_clientLabels.mpr hlabel) m hm
    | _ => exact absurd hop (by simp [operation])
  apply Lib.length_le_of_count
  · rintro ⟨j, i⟩ hmem
    exact (hmade j i).mpr (hknown j i hmem)
  · rintro ⟨j, i⟩ hmem
    have hsound := (hconcurrent j).sound i _ (List.getElem?_eq_getElem (hknown j i hmem))
    rw [hcount]
    calc
      _ ≤ _ := hsound.steps
      _ ≤ 4 + 2 := Nat.add_le_add (SendPhase.rank_le _) (PrivateCallback.rank_le _)

theorem taken_snoc (l : ExLabel ℕ (ℕ × ℕ) κ) :
    Serve.taken (serveLabels (labels ++ [.server l])) =
      Serve.taken (serveLabels labels) + if Serve.Callback l then 0 else 1 := by
  rw [serveLabels_snoc, Serve.taken_snoc]

theorem finishes_snoc : (labels ++ [label]).countP (fun label => Finishes label) =
    labels.countP (fun label => Finishes label) + if Finishes label then 1 else 0 := by
  simp only [List.countP_append, List.countP_singleton, decide_eq_true_eq]

-- The steps that finish are those of the operations, those that serve takes of
-- its own, the requests and the replies.
theorem countP_finishes (labels : List (SystemLabel κ)) :
    labels.countP (fun label => Finishes label) = (labels.filterMap operation).length +
      Serve.taken (serveLabels labels) + (posted labels).length +
      (labels.filterMap answeredCall).length := by
  induction labels using List.reverseRecOn with
  | nil => rfl
  | append_singleton labels label ih =>
      rw [finishes_snoc, ih, List.filterMap_append, List.filterMap_append, List.length_append,
        List.length_append]
      cases label with
      | client j l =>
          rw [serveLabels_snoc_ne (by simp), posted_snoc_ne (by simp)]
          cases l <;>
            simp [Finishes, List.filterMap_cons, operation, answeredCall, SendLabel.op] <;>
            omega
      | server l =>
          rw [taken_snoc]
          cases l with
          | ends i svcs =>
              rw [posted_snoc_ne (by simp)]
              simp [Finishes, List.filterMap_cons, operation, answeredCall, Serve.Callback]
              omega
          | server l =>
              cases l with
              | processRequest j message callback =>
                  rw [posted_snoc]
                  simp [Finishes, List.filterMap_cons, operation, answeredCall, Serve.Callback]
                  omega
              | _ =>
                  rw [posted_snoc_ne (by simp)]
                  simp [Finishes, List.filterMap_cons, operation, answeredCall,
                    Serve.Callback] <;> omega
      | answer j i n =>
          rw [serveLabels_snoc_ne (by simp), posted_snoc_ne (by simp)]
          simp [Finishes, List.filterMap_cons, operation, answeredCall]
          omega
      | giveUp j i hr =>
          rw [serveLabels_snoc_ne (by simp), posted_snoc_ne (by simp)]
          simp [Finishes, List.filterMap_cons, operation, answeredCall]

-- The most steps that finish what was sent: three for the listener, seven for
-- each connect and thirteen for each operation.
def bound (labels : List (SystemLabel κ)) : ℕ := 3 + 7 * connects labels + 13 * sends labels

theorem finishes_le (hrun : (machine pb names).Run Carries new labels s) :
    labels.countP (fun label => Finishes label) ≤ bound labels := by
  have h := run_linked hrun
  obtain ⟨made, hmade, hcard⟩ := run_made hrun
  obtain ⟨honce, hsettled⟩ := run_answered hrun
  have hoperations := h.operations_le hmade
  have hposted := h.posted_le hmade
  have hanswered : (labels.filterMap answeredCall).length ≤ made.card := by
    rw [← List.toFinset_card_of_nodup honce]
    apply Finset.card_le_card
    rintro ⟨j, i⟩ hmem
    exact h.made_of_settled hmade (hsettled j i (List.mem_toFinset.mp hmem))
  have htaken : Serve.taken (serveLabels labels) ≤
      3 + 7 * connects labels + 5 * (posted labels).length := by
    simpa only [Serve.bound, connects, posted, List.length_map] using Serve.taken_le h.serve
  rw [countP_finishes, bound, ← hcard]
  omega

theorem bound_finishes (labels : List (SystemLabel κ)) (hlabel : Finishes label) :
    bound (labels ++ [label]) = bound labels := by
  have hnot : ¬Sends label := by
    cases label with
    | client j l =>
        cases l with
        | send req => exact absurd hlabel id
        | _ => simp [Sends, SendLabel.op]
    | _ => exact id
  have hsends : sends (labels ++ [label]) = sends labels := by simp [sends, hnot]
  have hconnects : connects (labels ++ [label]) = connects labels := by
    cases label with
    | server l =>
        rw [connects, connects, serveLabels_snoc]
        cases l with
        | ends i svcs => simp [Serve.serverLabels]
        | server l =>
            rw [Serve.serverLabels_snoc, Server.history_snoc]
            cases l with
            | processConnect clientId callback => exact absurd hlabel id
            | _ => rfl
    | _ => rw [connects, serveLabels_snoc_ne (by simp), connects]
  rw [bound, hsends, hconnects, bound]

-- The steps that finish come to an end, and none of them fails.
theorem run_quiets (hrun : (machine pb names).Run Carries new labels s) :
    ∃ more t, (∀ label ∈ more, Finishes label) ∧
      (machine pb names).Run Carries new (labels ++ more) t ∧
      (machine pb names).Quiet Carries Finishes (labels ++ more) t := by
  apply hrun.quiets Finishes bound
  · exact fun labels _ hlabel => bound_finishes labels hlabel
  · exact fun _ _ => finishes_le
  · intro labels s label hrun _ hallow henabled
    obtain ⟨next, hx, -⟩ := exec_linked (run_linked hrun) hallow henabled
    exact ⟨next, hx⟩

end System

end FabricRpc.V2
