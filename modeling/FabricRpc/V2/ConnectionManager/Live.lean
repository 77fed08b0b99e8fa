import FabricRpc.V2.ConnectionManager

namespace FabricRpc.V2.ConnectionManager

variable {ι ε σ : Type*} {mgr mgr' : ConnectionManager ι ε σ}

section HandOut

-- The queue after a call, with the entry that the call has moved out of it.
variable (called : ItemQueue ℕ ε σ × Option (QueueEntry ε σ × ℕ))

@[simp] theorem handOut_entries : (mgr.handOut called).entries = mgr.entries := by
  obtain ⟨queue, _ | finished⟩ := called <;> rfl

@[simp] theorem handOut_conns : (mgr.handOut called).conns = mgr.conns := by
  obtain ⟨queue, _ | finished⟩ := called <;> rfl

@[simp] theorem handOut_connQueue : (mgr.handOut called).connQueue = called.1 := by
  obtain ⟨queue, _ | finished⟩ := called <;> rfl

@[simp] theorem handOut_handedOut : (mgr.handOut called).handedOut =
    mgr.handedOut ++ called.2.toList.map fun handed => (handed.1.item, handed.2) := by
  obtain ⟨queue, _ | finished⟩ := called
  · simp [handOut]
  · rfl

end HandOut

@[simp] theorem asyncPop_handedOut (mgr : ConnectionManager ι ε σ) (event : ε) (out : σ) :
    (mgr.asyncPop event out).handedOut = mgr.handedOut ++
      (mgr.connQueue.asyncPop event out).2.toList.map fun handed => (handed.1.item, handed.2) := by
  simp [asyncPop]

variable [DecidableEq ι]

-- An entry is the one that `conns_` holds for its client.
def Current (mgr : ConnectionManager ι ε σ) (entry : ℕ) : Prop :=
  ∃ id, mgr.entries[entry]? = some id ∧ mgr.postTarget id = some entry

-- A step leaves only such entries in the queue, and has handed out only such.
def HandsOutLive [DecidableEq ε] (_ : List (ManagerLabel ι ε σ)) (mgr : ConnectionManager ι ε σ)
    (label : ManagerLabel ι ε σ) : Prop :=
  ∀ mgr', mgr.exec label = .ok mgr' →
    (∀ entry ∈ mgr'.connQueue.items, mgr'.Current entry) ∧
      ∀ out entry, (out, entry) ∈ mgr'.handedOut.drop mgr.handedOut.length → mgr'.Current entry

-- No client is added that is there, and none goes while it waits to be accepted.
def Orderly (_ : List (ManagerLabel ι ε σ)) (mgr : ConnectionManager ι ε σ) :
    ManagerLabel ι ε σ → Prop
  | .addConn clientId => clientId ∉ mgr.conns
  | .disconnect id => ∀ entry, mgr.postTarget id = some entry → entry ∉ mgr.connQueue.items
  | _ => True

-- The table holds entries that were made for their clients, and so far only
-- those in the queue are waited for.
structure Live (mgr : ConnectionManager ι ε σ) : Prop where
  table : ∀ id entry, mgr.postTarget id = some entry → mgr.entries[entry]? = some id
  waiting : ∀ entry ∈ mgr.connQueue.items, mgr.Current entry

theorem new_live : Live (new : ConnectionManager ι ε σ) where
  table := fun id entry h => by simp [postTarget, new] at h
  waiting := fun entry h => absurd h List.not_mem_nil

section AddConn

variable (mgr) (clientId : ι)

@[simp] theorem addConn_entries : (mgr.addConn clientId).entries = mgr.entries ++ [clientId] := by
  simp [addConn]

@[simp] theorem addConn_connQueue : (mgr.addConn clientId).connQueue =
    (mgr.connQueue.push mgr.entries.length).1 := by
  simp [addConn]

@[simp] theorem addConn_handedOut : (mgr.addConn clientId).handedOut = mgr.handedOut ++
    (mgr.connQueue.push mgr.entries.length).2.toList.map fun handed =>
      (handed.1.item, handed.2) := by
  simp [addConn]

theorem addConn_postTarget (id : ι) : (mgr.addConn clientId).postTarget id =
    if id = clientId ∧ clientId ∉ mgr.conns then some mgr.entries.length
    else mgr.postTarget id := by
  simp only [postTarget, addConn, handOut_conns]
  by_cases hold : clientId ∈ mgr.conns
  · simp [hold]
  · by_cases hid : id = clientId
    · subst hid
      simp [hold]
    · simp [hold, hid, AList.lookup_insert_ne hid]

variable {mgr clientId}

theorem Current.entry_lt {entry : ℕ} (h : mgr.Current entry) : entry < mgr.entries.length := by
  obtain ⟨id, hid, -⟩ := h
  exact (List.getElem?_eq_some_iff.mp hid).1

theorem Current.addConn {entry : ℕ} (h : mgr.Current entry) (hnew : clientId ∉ mgr.conns) :
    (mgr.addConn clientId).Current entry := by
  have hlt := h.entry_lt
  obtain ⟨id, hid, htarget⟩ := h
  have hne : id ≠ clientId := by
    rintro rfl
    exact hnew (AList.lookup_isSome.mp (by rw [postTarget] at htarget; simp [htarget]))
  refine ⟨id, ?_, ?_⟩
  · rw [addConn_entries, List.getElem?_append_left hlt, hid]
  · simp [addConn_postTarget, hne, htarget]

-- The entry that was added is current if and only if its client was not there.
theorem current_added_iff (h : Live mgr) :
    (mgr.addConn clientId).Current mgr.entries.length ↔ clientId ∉ mgr.conns := by
  constructor
  · rintro ⟨id, -, htarget⟩ hold
    simp only [addConn_postTarget, hold, not_true, and_false, if_false] at htarget
    have hlt := (List.getElem?_eq_some_iff.mp (h.table id _ htarget)).1
    omega
  · intro hnew
    exact ⟨clientId, by simp, by simp [addConn_postTarget, hnew]⟩

theorem addConn_table (h : Live mgr) (id : ι) (entry : ℕ)
    (htarget : (mgr.addConn clientId).postTarget id = some entry) :
    (mgr.addConn clientId).entries[entry]? = some id := by
  rw [addConn_postTarget] at htarget
  split at htarget
  · rename_i hid
    obtain rfl := Option.some.inj htarget
    simp [hid.1]
  · have hentry := h.table id entry htarget
    have hlt := (List.getElem?_eq_some_iff.mp hentry).1
    rw [addConn_entries, List.getElem?_append_left hlt, hentry]

end AddConn

section Disconnect

theorem disconnect_ok {id : ι} (hx : mgr.disconnect id = .ok mgr') :
    ∃ entry, mgr.postTarget id = some entry ∧ mgr' = { mgr with conns := mgr.conns.erase id } := by
  unfold disconnect at hx
  split at hx
  · exact absurd hx (by simp)
  · rename_i entry hlookup
    exact ⟨entry, hlookup, (Except.ok.inj hx).symm⟩

theorem erase_postTarget (id other : ι) :
    postTarget { mgr with conns := mgr.conns.erase id } other =
      if other = id then none else mgr.postTarget other := by
  unfold postTarget
  by_cases hother : other = id
  · subst hother
    simp
  · simp [hother, AList.lookup_erase_ne hother]

-- The entries that stay current are those of other clients.
theorem current_erase_iff (h : Live mgr) {id : ι} {entry : ℕ} :
    Current { mgr with conns := mgr.conns.erase id } entry ↔
      mgr.Current entry ∧ mgr.postTarget id ≠ some entry := by
  constructor
  · rintro ⟨other, hother, htarget⟩
    rw [erase_postTarget] at htarget
    split at htarget
    · exact absurd htarget (by simp)
    · rename_i hne
      refine ⟨⟨other, hother, htarget⟩, ?_⟩
      intro hid
      have hentry := h.table id entry hid
      exact hne (Option.some.inj (hother.symm.trans hentry))
  · rintro ⟨⟨other, hother, htarget⟩, hid⟩
    refine ⟨other, hother, ?_⟩
    have hne : other ≠ id := by
      rintro rfl
      exact hid htarget
    rw [erase_postTarget, if_neg hne, htarget]

end Disconnect

section Step

variable [DecidableEq ε] {labels : List (ManagerLabel ι ε σ)} {label : ManagerLabel ι ε σ}

-- What a step has left, once it is known.
theorem handsOutLive_iff (hx : mgr.exec label = .ok mgr') : HandsOutLive labels mgr label ↔
    (∀ entry ∈ mgr'.connQueue.items, mgr'.Current entry) ∧
      ∀ out entry, (out, entry) ∈ mgr'.handedOut.drop mgr.handedOut.length →
        mgr'.Current entry := by
  constructor
  · exact fun h => h mgr' hx
  · intro h next hnext
    obtain rfl : mgr' = next := Except.ok.inj (hx.symm.trans hnext)
    exact h

theorem addConn_handsOutLive_iff (h : Live mgr) {clientId : ι} :
    HandsOutLive labels mgr (.addConn clientId) ↔ clientId ∉ mgr.conns := by
  obtain ⟨hitems, hhanded, hadded⟩ := ItemQueue.push_leaves mgr.connQueue mgr.entries.length
  rw [handsOutLive_iff rfl, ← current_added_iff h]
  constructor
  · rintro ⟨hwaiting, hout⟩
    rcases hadded with hadded | ⟨e, hadded⟩
    · exact hwaiting _ (by simpa using hadded)
    · exact hout e.item _ (by simp [hadded])
  · intro hcurrent
    have hnew := (current_added_iff h).mp hcurrent
    refine ⟨?_, ?_⟩
    · intro entry hentry
      rw [addConn_connQueue] at hentry
      rcases hitems entry hentry with hentry | rfl
      · exact (h.waiting entry hentry).addConn hnew
      · exact hcurrent
    · intro out entry hentry
      obtain ⟨e, hfinished, -⟩ : ∃ e, (mgr.connQueue.push mgr.entries.length).2 = some (e, entry) ∧
          e.item = out := by simpa using hentry
      rw [hhanded e entry hfinished]
      exact hcurrent

theorem asyncPop_handsOutLive (h : Live mgr) (event : ε) (msgout : σ) :
    HandsOutLive labels mgr (.asyncPop event msgout) := by
  obtain ⟨hitems, hhanded⟩ := ItemQueue.asyncPop_leaves mgr.connQueue event msgout
  have hcurrent (entry : ℕ) : (mgr.asyncPop event msgout).Current entry ↔ mgr.Current entry := by
    simp [Current, asyncPop, postTarget]
  rw [handsOutLive_iff rfl]
  refine ⟨?_, ?_⟩
  · intro entry hentry
    rw [asyncPop, handOut_connQueue] at hentry
    exact (hcurrent entry).mpr (h.waiting entry (hitems entry hentry))
  · intro out entry hentry
    obtain ⟨e, hfinished, -⟩ : ∃ e, (mgr.connQueue.asyncPop event msgout).2 = some (e, entry) ∧
        e.item = out := by simpa using hentry
    exact (hcurrent entry).mpr (h.waiting entry (hhanded e entry hfinished))

theorem disconnect_handsOutLive_iff (h : Live mgr) {id : ι}
    (hx : mgr.exec (.disconnect id) = .ok mgr') :
    HandsOutLive labels mgr (.disconnect id) ↔
      ∀ entry, mgr.postTarget id = some entry → entry ∉ mgr.connQueue.items := by
  obtain ⟨found, -, rfl⟩ := disconnect_ok hx
  rw [handsOutLive_iff hx]
  constructor
  · rintro ⟨hwaiting, -⟩ entry htarget hentry
    exact ((current_erase_iff h).mp (hwaiting entry hentry)).2 htarget
  · intro hgone
    refine ⟨?_, by simp⟩
    intro entry hentry
    exact (current_erase_iff h).mpr ⟨h.waiting entry hentry, fun hid => hgone entry hid hentry⟩

theorem cancel_handsOutLive (h : Live mgr) (event : ε) :
    HandsOutLive labels mgr (.cancel event) := by
  rw [handsOutLive_iff rfl]
  refine ⟨?_, by simp [cancel]⟩
  intro entry hentry
  simp only [cancel, ItemQueue.cancel_items] at hentry
  exact h.waiting entry hentry

-- A step hands out live entries, and leaves such in the queue, exactly if it is
-- in order.
theorem handsOutLive_iff_orderly (h : Live mgr) (hx : mgr.exec label = .ok mgr') :
    HandsOutLive labels mgr label ↔ Orderly labels mgr label := by
  cases label with
  | addConn clientId => exact addConn_handsOutLive_iff h
  | asyncPop event out => exact iff_of_true (asyncPop_handsOutLive h event out) trivial
  | disconnect id => exact disconnect_handsOutLive_iff h hx
  | cancel event => exact iff_of_true (cancel_handsOutLive h event) trivial

theorem exec_table (h : Live mgr) (hx : mgr.exec label = .ok mgr') :
    ∀ id entry, mgr'.postTarget id = some entry → mgr'.entries[entry]? = some id := by
  cases label with
  | addConn clientId =>
      obtain rfl : mgr.addConn clientId = mgr' := Except.ok.inj hx
      exact addConn_table h
  | asyncPop event out =>
      obtain rfl : mgr.asyncPop event out = mgr' := Except.ok.inj hx
      simpa [asyncPop, postTarget] using h.table
  | disconnect id =>
      obtain ⟨found, -, rfl⟩ := disconnect_ok hx
      intro other entry htarget
      rw [erase_postTarget] at htarget
      split at htarget
      · exact absurd htarget (by simp)
      · exact h.table other entry htarget
  | cancel event =>
      obtain rfl : mgr.cancel event = mgr' := Except.ok.inj hx
      exact h.table

theorem exec_live (h : Live mgr) (hallow : Orderly labels mgr label)
    (hx : mgr.exec label = .ok mgr') : Live mgr' := by
  have hlive : HandsOutLive labels mgr label := (handsOutLive_iff_orderly h hx).mpr hallow
  exact ⟨exec_table h hx, (hlive mgr' hx).1⟩

-- A manager hands out only live connections in exactly those runs in which no
-- client is added that is there already, and none is disconnected while it waits
-- to be accepted.
theorem hands_out_live_iff_orderly :
    (machine ι ε σ).Run HandsOutLive new labels mgr ↔
      (machine ι ε σ).Run Orderly new labels mgr := by
  apply Lib.Machine.Run.congr (fun _ => Live) new_live
  · exact fun labels mgr label mgr' h hallow _ hx => exec_live h hallow hx
  · exact fun labels mgr label mgr' h _ hx => handsOutLive_iff_orderly h hx

-- A client comes twice, and its second entry is handed out while its requests go
-- to the first. Or it comes and goes, and its entry waits for nobody.
theorem dead_connection_is_handed_out :
    (∃ mgr mgr' : ConnectionManager ℕ ℕ ℕ,
      (machine ℕ ℕ ℕ).Run Lib.Machine.anything new [.addConn 5, .addConn 5] mgr ∧
      1 ∈ mgr.connQueue.items ∧ ¬mgr.Current 1 ∧ mgr.exec (.asyncPop 0 10) = .ok mgr' ∧
      mgr'.handedOut = [(10, 1)] ∧ mgr'.postTarget 5 = some 0) ∧
    ∃ mgr : ConnectionManager ℕ ℕ ℕ,
      (machine ℕ ℕ ℕ).Run Lib.Machine.anything new [.addConn 5, .disconnect 5] mgr ∧
      0 ∈ mgr.connQueue.items ∧ ¬mgr.Current 0 := by
  have htwice : (machine ℕ ℕ ℕ).Run Lib.Machine.anything new [.addConn 5, .addConn 5] _ :=
    .snoc (.snoc .nil trivial trivial rfl) trivial trivial rfl
  have hgone : (machine ℕ ℕ ℕ).Run Lib.Machine.anything new [.addConn 5, .disconnect 5] _ :=
    .snoc (.snoc .nil trivial trivial rfl) trivial trivial rfl
  refine ⟨⟨_, _, htwice, List.mem_cons_of_mem _ List.mem_cons_self, ?_, rfl, rfl, rfl⟩,
    _, hgone, List.mem_cons_self, ?_⟩
  · rintro ⟨id, hid, htarget⟩
    obtain rfl : 5 = id := Option.some.inj hid
    exact absurd htarget (by decide)
  · rintro ⟨id, hid, htarget⟩
    obtain rfl : 5 = id := Option.some.inj hid
    exact absurd htarget (by decide)

end Step

end FabricRpc.V2.ConnectionManager
