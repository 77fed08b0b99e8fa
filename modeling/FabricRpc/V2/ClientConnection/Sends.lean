import FabricRpc.V2.ClientConnection

namespace FabricRpc.V2

variable {μ κ : Type*}

-- The operation that a step belongs to. A callback has the number of its operation.
def SendLabel.op : SendLabel μ κ → Option ℕ
  | .send _ => none
  | .begin i => some i
  | .began i _ _ => some i
  | .wait i => some i
  | .finish i _ _ => some i
  | .invoke c => some c
  | .release c => some c

-- The number of steps behind a phase, and behind the state of a callback.
def SendPhase.rank : SendPhase κ → ℕ
  | .composed => 0
  | .beginning _ => 1
  | .begun _ _ => 2
  | .waiting _ _ _ => 3
  | .completed => 4

def PrivateCallback.rank : PrivateCallback → ℕ
  | ⟨some _, false⟩ => 0
  | ⟨some _, true⟩ => 1
  | ⟨none, _⟩ => 2

namespace SendOp

-- Nobody was told anything yet.
def Untold (op : SendOp μ κ) : Prop := op.ended = [] ∧ op.handled = []

-- BeginRequest has failed, and its error went to the handler.
def Failed (op : SendOp μ κ) : Prop :=
  ∃ hr ctx, hr ≠ sOk ∧ op.began = some (hr, ctx) ∧ op.ended = [] ∧ op.handled = [(hr, none)]

-- EndRequest was called with the context of the operation, and what it gave
-- went to the handler.
def Answered (op : SendOp μ κ) : Prop :=
  ∃ ctx hr reply, op.began = some (sOk, ctx) ∧ op.ended = [(ctx, hr, reply)] ∧
    op.handled = [(hr, reply)]

-- What holds of operation j at each phase.
def Told (labels : List (SendLabel μ κ)) (j : ℕ) (set : Bool) (op : SendOp μ κ) : Prop :=
  match op.phase with
  | .composed => op.sent = [] ∧ op.began = none ∧ op.Untold ∧ .invoke j ∉ labels
  | .beginning ev =>
      ev = j ∧ op.sent = [(op.req, sendTimeout)] ∧ op.began = none ∧ op.Untold
  | .begun ev ctx =>
      ev = j ∧ op.sent = [(op.req, sendTimeout)] ∧ op.began = some (sOk, ctx) ∧ op.Untold
  | .waiting ev ctx fired =>
      ev = j ∧ fired = set ∧ op.sent = [(op.req, sendTimeout)] ∧
        op.began = some (sOk, ctx) ∧ op.Untold
  | .completed => op.sent = [(op.req, sendTimeout)] ∧ (op.Failed ∨ op.Answered)

-- Operation j, its callback and its event.
structure Sound (labels : List (SendLabel μ κ)) (j : ℕ) (callback : PrivateCallback)
    (set : Bool) (op : SendOp μ κ) : Prop where
  made : op.callback = j
  invoked : set = true ↔ .invoke j ∈ labels
  held : callback.ev = some j ∨ callback.ev = none ∧ .invoke j ∈ labels
  invoking : callback.invoking = true → callback.ev = some j ∧ .invoke j ∈ labels
  told : op.Told labels j set
  steps : (labels.filter (·.op = some j)).length ≤ op.phase.rank + callback.rank

variable {labels : List (SendLabel μ κ)} {j : ℕ} {callback : PrivateCallback} {set : Bool}
  {op : SendOp μ κ}

theorem mem_snoc_of_op {label : SendLabel μ κ} (hlabel : label ≠ .invoke j) :
    .invoke j ∈ labels ++ [label] ↔ .invoke j ∈ labels := by
  simp [hlabel.symm]

theorem steps_snoc {label : SendLabel μ κ} (hlabel : label.op = some j) :
    ((labels ++ [label]).filter (·.op = some j)).length =
      (labels.filter (·.op = some j)).length + 1 := by
  simp [List.filter_append, hlabel]

-- A step that does not invoke the callback leaves what holds at a phase.
theorem Told.snoc (h : op.Told labels j set) {label : SendLabel μ κ}
    (hlabel : label ≠ .invoke j) : op.Told (labels ++ [label]) j set := by
  unfold Told at h ⊢
  split at h
  · rename_i hphase
    simpa only [hphase, mem_snoc_of_op hlabel] using h
  · rename_i hphase
    simpa only [hphase] using h
  · rename_i hphase
    simpa only [hphase] using h
  · rename_i hphase
    simpa only [hphase] using h
  · rename_i hphase
    simpa only [hphase] using h

-- A step that does not invoke the callback.
theorem Sound.snoc (h : Sound labels j callback set op) {label : SendLabel μ κ}
    {next : SendOp μ κ} (hinvoke : label ≠ .invoke j) (hcallback : next.callback = op.callback)
    (htold : next.Told (labels ++ [label]) j set)
    (hsteps : ((labels ++ [label]).filter (·.op = some j)).length ≤
      next.phase.rank + callback.rank) : Sound (labels ++ [label]) j callback set next := by
  refine ⟨hcallback.trans h.made, ?_, ?_, ?_, htold, hsteps⟩
  · rw [mem_snoc_of_op hinvoke]
    exact h.invoked
  · rw [mem_snoc_of_op hinvoke]
    exact h.held
  · rw [mem_snoc_of_op hinvoke]
    exact h.invoking

-- A step of another operation.
theorem Sound.frame (h : Sound labels j callback set op) {label : SendLabel μ κ}
    (hlabel : label.op ≠ some j) : Sound (labels ++ [label]) j callback set op := by
  have hinvoke : label ≠ .invoke j := by
    rintro rfl
    exact hlabel rfl
  apply h.snoc hinvoke rfl (h.told.snoc hinvoke)
  simpa [List.filter_append, hlabel] using h.steps

-- A step of the operation itself, to a later phase.
theorem Sound.advance (h : Sound labels j callback set op) {label : SendLabel μ κ}
    {next : SendOp μ κ} (hlabel : label.op = some j) (hinvoke : label ≠ .invoke j)
    (hcallback : next.callback = op.callback) (hrank : op.phase.rank < next.phase.rank)
    (htold : next.Told (labels ++ [label]) j set) :
    Sound (labels ++ [label]) j callback set next := by
  apply h.snoc hinvoke hcallback htold
  have hsteps := h.steps
  rw [steps_snoc hlabel]
  omega

theorem begin_sound (h : Sound labels j callback set op) (hphase : op.phase = .composed) :
    Sound (labels ++ [.begin j]) j callback set (op.begin j) := by
  have htold := h.told
  simp only [Told, hphase] at htold
  obtain ⟨hsent, hbegan, huntold, -⟩ := htold
  refine h.advance rfl (by simp) rfl ?_ ?_
  · simp [begin, hphase, SendPhase.rank]
  · exact ⟨rfl, by simp [begin, hsent], hbegan, huntold⟩

theorem onBegan_sound (h : Sound labels j callback set op) {ev : ℕ}
    (hphase : op.phase = .beginning ev) (hr : Int32) (ctx : Option κ) :
    Sound (labels ++ [.began j hr ctx]) j callback set (op.onBegan hr ctx) := by
  have htold := h.told
  simp only [Told, hphase] at htold
  obtain ⟨rfl, hsent, hbegan, hended, hhandled⟩ := htold
  by_cases hok : hr = sOk
  · have hnext : op.onBegan hr ctx =
        { op with phase := .begun ev ctx, began := some (hr, ctx) } := by
      simp [onBegan, hphase, hok]
    rw [hnext]
    refine h.advance rfl (by simp) rfl ?_ ?_
    · simp [hphase, SendPhase.rank]
    · exact ⟨rfl, hsent, by rw [hok], hended, hhandled⟩
  · have hnext : op.onBegan hr ctx = { op with
        phase := .completed
        began := some (hr, ctx)
        handled := [(hr, none)] } := by
      simp [onBegan, hphase, hok, hhandled]
    rw [hnext]
    refine h.advance rfl (by simp) rfl ?_ ?_
    · simp [hphase, SendPhase.rank]
    · exact ⟨hsent, .inl ⟨hr, ctx, hok, rfl, hended, rfl⟩⟩

theorem wait_sound (h : Sound labels j callback set op) {ev : ℕ} {ctx : Option κ}
    (hphase : op.phase = .begun ev ctx) {events : ℕ → Bool} (hset : events j = set) :
    Sound (labels ++ [.wait j]) j callback set (op.wait events) := by
  have htold := h.told
  simp only [Told, hphase] at htold
  obtain ⟨rfl, hsent, hbegan, huntold⟩ := htold
  have hnext : op.wait events = { op with phase := .waiting ev ctx set } := by
    simp [wait, hphase, hset]
  rw [hnext]
  refine h.advance rfl (by simp) rfl ?_ ?_
  · simp [hphase, SendPhase.rank]
  · exact ⟨rfl, rfl, hsent, hbegan, huntold⟩

theorem onWaited_sound (h : Sound labels j callback set op) {ev : ℕ} {ctx : Option κ}
    {fired : Bool} (hphase : op.phase = .waiting ev ctx fired) (hr : Int32) (reply : Option μ) :
    Sound (labels ++ [.finish j hr reply]) j callback set (op.onWaited hr reply) := by
  have htold := h.told
  simp only [Told, hphase] at htold
  obtain ⟨rfl, -, hsent, hbegan, hended, hhandled⟩ := htold
  have hnext : op.onWaited hr reply = { op with
      phase := .completed
      ended := [(ctx, hr, reply)]
      handled := [(hr, reply)] } := by
    simp [onWaited, hphase, hended, hhandled]
  rw [hnext]
  refine h.advance rfl (by simp) rfl ?_ ?_
  · simp [hphase, SendPhase.rank]
  · exact ⟨hsent, .inr ⟨ctx, hr, reply, hbegan, rfl, rfl⟩⟩

-- A callback that was not invoked has its event.
theorem Sound.callback_eq (h : Sound labels j callback set op) (hnot : .invoke j ∉ labels) :
    callback = ⟨some j, false⟩ := by
  have hev : callback.ev = some j := h.held.resolve_right fun hreleased => hnot hreleased.2
  have hinvoking : callback.invoking = false :=
    Bool.eq_false_iff.mpr fun hinvoking => hnot (h.invoking hinvoking).2
  obtain ⟨ev, invoking⟩ := callback
  exact congrArg₂ PrivateCallback.mk hev hinvoking

theorem invoke_sound (h : Sound labels j callback set op) (hnot : .invoke j ∉ labels)
    (hsent : op.sent ≠ []) :
    Sound (labels ++ [.invoke j]) j ⟨some j, true⟩ true (op.wake j) := by
  have hmem : SendLabel.invoke j ∈ labels ++ [.invoke j] :=
    List.mem_append_right _ List.mem_cons_self
  have htold := h.told
  have hsteps := h.steps
  rw [h.callback_eq hnot] at hsteps
  have hwake : (op.wake j).callback = op.callback ∧
      (op.wake j).phase.rank = op.phase.rank ∧ (op.wake j).Told (labels ++ [.invoke j]) j true := by
    unfold wake
    unfold Told at htold
    split at htold
    · exact absurd htold.1 hsent
    · rename_i hphase
      simpa only [hphase, Told, true_and] using htold
    · rename_i hphase
      simpa only [hphase, Told, true_and] using htold
    · rename_i ev ctx fired hphase
      obtain ⟨rfl, -, htold⟩ := htold
      simpa only [hphase, Told, Untold, SendPhase.rank, beq_self_eq_true, Bool.or_true,
        true_and] using htold
    · rename_i hphase
      simpa only [hphase, Told, true_and] using htold
  refine ⟨hwake.1.trans h.made, ?_, .inl rfl, fun _ => ⟨rfl, hmem⟩, hwake.2.2, ?_⟩
  · simp
  · rw [steps_snoc rfl, hwake.2.1]
    simp only [PrivateCallback.rank] at hsteps ⊢
    omega

-- The callback of another operation wakes nobody here.
theorem Sound.wake_ne (h : Sound labels j callback set op) {ev : ℕ} (hne : j ≠ ev) :
    op.wake ev = op := by
  have htold := h.told
  unfold wake
  split
  · rename_i waited ctx fired hphase
    simp only [Told, hphase] at htold
    obtain ⟨rfl, -⟩ := htold
    have hbeq : (waited == ev) = false := beq_false_of_ne hne
    rw [hbeq, Bool.or_false, ← hphase]
  · rfl

theorem release_sound (h : Sound labels j callback set op) (hinvoking : callback.invoking = true) :
    Sound (labels ++ [.release j]) j ⟨none, false⟩ set op := by
  have hinvoke : (SendLabel.release j : SendLabel μ κ) ≠ .invoke j := by simp
  obtain ⟨hev, hmem⟩ := h.invoking hinvoking
  have hrank : callback.rank = 1 := by
    obtain ⟨ev, invoking⟩ := callback
    obtain rfl : ev = some j := hev
    obtain rfl : invoking = true := hinvoking
    rfl
  have hsteps := h.steps
  refine ⟨h.made, ?_, .inr ⟨rfl, List.mem_append_left _ hmem⟩, ?_, h.told.snoc hinvoke, ?_⟩
  · rw [mem_snoc_of_op hinvoke]
    exact h.invoked
  · exact fun hfalse => absurd hfalse (by simp)
  · rw [steps_snoc rfl, show PrivateCallback.rank ⟨none, false⟩ = 2 from rfl]
    omega

end SendOp

namespace ClientConnection

variable {labels : List (SendLabel μ κ)} {s s' : ClientConnection μ κ}

-- All operations of a connection.
structure Concurrent (labels : List (SendLabel μ κ)) (s : ClientConnection μ κ) : Prop where
  sound : ∀ j op, s.ops[j]? = some op →
    SendOp.Sound labels j (s.callbacks j) (s.events j) op
  known : ∀ label ∈ labels, ∀ j, label.op = some j → j < s.ops.length
  unmade : ∀ c, s.ops.length ≤ c → (s.callbacks c).invoking = false

theorem new_concurrent : Concurrent [] (new : ClientConnection μ κ) where
  sound := fun j op h => by simp [new] at h
  known := fun label h => absurd h List.not_mem_nil
  unmade := fun _ _ => rfl

-- A step of operation i leaves the others, with what belongs to them.
theorem Concurrent.step (h : Concurrent labels s) {label : SendLabel μ κ} {i : ℕ}
    (hlabel : label.op = some i) (hlength : s'.ops.length = s.ops.length) (hi : i < s.ops.length)
    (hother : ∀ j, j ≠ i → s'.callbacks j = s.callbacks j ∧ s'.events j = s.events j ∧
      ∀ op, s'.ops[j]? = some op → s.ops[j]? = some op)
    (hself : ∀ op, s'.ops[i]? = some op →
      SendOp.Sound (labels ++ [label]) i (s'.callbacks i) (s'.events i) op) :
    Concurrent (labels ++ [label]) s' := by
  refine ⟨?_, ?_, ?_⟩
  · intro j op hop
    by_cases hj : j = i
    · subst hj
      exact hself op hop
    · obtain ⟨hcallback, hevent, hops⟩ := hother j hj
      rw [hcallback, hevent]
      apply (h.sound j op (hops op hop)).frame
      rw [hlabel]
      exact fun heq => hj (Option.some.inj heq).symm
  · intro other hmem j hj
    rw [hlength]
    rcases List.mem_append.mp hmem with hmem | hmem
    · exact h.known other hmem j hj
    · rw [List.mem_singleton.mp hmem, hlabel] at hj
      exact Option.some.inj hj ▸ hi
  · intro c hc
    have hne : c ≠ i := by omega
    rw [(hother c hne).1]
    exact h.unmade c (by omega)

-- A step that only changes the record of its operation.
theorem Concurrent.modify (h : Concurrent labels s) {label : SendLabel μ κ} {i : ℕ}
    {op : SendOp μ κ} {f : SendOp μ κ → SendOp μ κ} (hlabel : label.op = some i)
    (hop : s.ops[i]? = some op)
    (hself : SendOp.Sound (labels ++ [label]) i (s.callbacks i) (s.events i) (f op)) :
    Concurrent (labels ++ [label]) { s with ops := s.ops.modify i f } := by
  have hi : i < s.ops.length := (List.getElem?_eq_some_iff.mp hop).1
  refine h.step hlabel (by simp) hi ?_ ?_
  · intro j hj
    refine ⟨rfl, rfl, ?_⟩
    intro other hother
    simpa [List.getElem?_modify, Ne.symm hj] using hother
  · intro next hnext
    have hnext : f op = next := by simpa [List.getElem?_modify, hop] using hnext
    rwa [← hnext]

theorem asyncSend_concurrent (h : Concurrent labels s) (req : μ) :
    Concurrent (labels ++ [.send req]) (s.asyncSend req) := by
  have hunknown (j : ℕ) (hj : s.ops.length ≤ j) : ∀ label ∈ labels, label.op ≠ some j := by
    intro label hmem heq
    have hlt := h.known label hmem j heq
    omega
  have hlength : (s.asyncSend req).ops.length = s.ops.length + 1 := by simp [asyncSend]
  refine ⟨?_, ?_, ?_⟩
  · intro j op hop
    rcases lt_trichotomy j s.ops.length with hj | hj | hj
    · have hold : s.ops[j]? = some op := by
        simpa [asyncSend, List.getElem?_append_left hj] using hop
      have hne : j ≠ s.ops.length := by omega
      have hother : SendLabel.op (.send req : SendLabel μ κ) ≠ some j := by simp [SendLabel.op]
      simpa [asyncSend, hne] using (h.sound j op hold).frame hother
    · subst hj
      have hnew : ⟨req, s.ops.length, .composed, [], none, [], []⟩ = op := by
        simpa [asyncSend] using hop
      subst hnew
      have hinvoke : SendLabel.invoke s.ops.length ∉ labels ++ [.send req] := by
        intro hmem
        rcases List.mem_append.mp hmem with hmem | hmem
        · exact hunknown _ le_rfl _ hmem rfl
        · exact absurd (List.mem_singleton.mp hmem) (by simp)
      have hnone : (labels ++ [SendLabel.send req]).filter
          (fun label : SendLabel μ κ => label.op = some s.ops.length) = [] := by
        rw [List.filter_eq_nil_iff]
        intro label hmem
        rcases List.mem_append.mp hmem with hmem | hmem
        · simpa using hunknown _ le_rfl label hmem
        · rw [List.mem_singleton.mp hmem]
          simp [SendLabel.op]
      refine ⟨rfl, ?_, .inl (by simp [asyncSend]), ?_, ⟨rfl, rfl, ⟨rfl, rfl⟩, hinvoke⟩, ?_⟩
      · simp [asyncSend, hinvoke]
      · simp [asyncSend]
      · rw [hnone]
        exact Nat.zero_le _
    · have hlt := (List.getElem?_eq_some_iff.mp hop).1
      omega
  · intro label hmem j hj
    rcases List.mem_append.mp hmem with hmem | hmem
    · have hlt := h.known label hmem j hj
      omega
    · rw [List.mem_singleton.mp hmem] at hj
      exact absurd hj (by simp [SendLabel.op])
  · intro c hc
    have hne : c ≠ s.ops.length := by omega
    simpa [asyncSend, hne] using h.unmade c (by omega)

theorem begin_concurrent (h : Concurrent labels s) {i : ℕ} {op : SendOp μ κ}
    (hop : s.ops[i]? = some op) (hphase : op.phase = .composed) :
    ∃ s', s.begin i = .ok s' ∧ Concurrent (labels ++ [.begin i]) s' := by
  have hsound := h.sound i op hop
  have htold := hsound.told
  simp only [SendOp.Told, hphase] at htold
  have hev : (s.callbacks op.callback).ev = some i := by
    rw [hsound.made, hsound.callback_eq htold.2.2.2]
  have hi : i < s.ops.length := (List.getElem?_eq_some_iff.mp hop).1
  refine ⟨{ s with ops := s.ops.set i (op.begin i) }, by simp only [begin, hop, hev], ?_⟩
  refine h.step rfl (by simp) hi ?_ ?_
  · intro j hj
    refine ⟨rfl, rfl, ?_⟩
    intro other hother
    simpa [List.getElem?_set_ne (Ne.symm hj)] using hother
  · intro next hnext
    have hnext : op.begin i = next := by simpa [hi] using hnext
    rw [← hnext]
    exact SendOp.begin_sound hsound hphase

theorem invoke_concurrent (h : Concurrent labels s) {c : ℕ}
    (hallow : Transport labels s (.invoke c)) :
    ∃ s', s.invoke c = .ok s' ∧ Concurrent (labels ++ [.invoke c]) s' := by
  obtain ⟨hnot, op, hmem, hcallback, hsent, -⟩ := hallow
  obtain ⟨i, hi, hop⟩ := List.mem_iff_getElem.mp hmem
  have hop : s.ops[i]? = some op := by rw [List.getElem?_eq_getElem hi, hop]
  have hsound := h.sound i op hop
  obtain rfl : i = c := hsound.made.symm.trans hcallback
  have hev : (s.callbacks i).ev = some i := by rw [hsound.callback_eq hnot]
  have hx : s.invoke i = .ok
      { callbacks := Function.update s.callbacks i ⟨some i, true⟩
        events := Function.update s.events i true
        ops := s.ops.map (SendOp.wake i) } := by
    simp only [invoke, hev]
  refine ⟨_, hx, ?_⟩
  refine h.step rfl (by simp) hi ?_ ?_
  · intro j hj
    refine ⟨by simp [hj], by simp [hj], ?_⟩
    intro other hother
    obtain ⟨old, hold, hwake⟩ : ∃ old, s.ops[j]? = some old ∧ old.wake i = other := by
      simpa [List.getElem?_map] using hother
    rwa [← hwake, (h.sound j old hold).wake_ne hj]
  · intro next hnext
    have hnext : op.wake i = next := by simpa [List.getElem?_map, hop] using hnext
    simpa [← hnext] using SendOp.invoke_sound hsound hnot hsent

theorem release_concurrent (h : Concurrent labels s) {c : ℕ}
    (hinvoking : (s.callbacks c).invoking = true) :
    Concurrent (labels ++ [.release c]) (s.release c) := by
  have hc : c < s.ops.length := by
    by_contra hge
    rw [h.unmade c (by omega)] at hinvoking
    exact absurd hinvoking (by simp)
  refine h.step rfl rfl hc ?_ ?_
  · intro j hj
    exact ⟨by simp [release, hj], rfl, fun _ hother => hother⟩
  · intro op hop
    simpa [release] using SendOp.release_sound (h.sound c op hop) hinvoking

-- No step that the transport allows fails an assertion.
theorem exec_concurrent (h : Concurrent labels s) {label : SendLabel μ κ}
    (hallow : Transport labels s label) (henabled : s.Enabled label) :
    ∃ s', s.exec label = .ok s' ∧ Concurrent (labels ++ [label]) s' := by
  cases label with
  | send req => exact ⟨_, rfl, asyncSend_concurrent h req⟩
  | begin i =>
      obtain ⟨op, hop, hphase⟩ := henabled
      exact begin_concurrent h hop hphase
  | began i hr ctx =>
      obtain ⟨op, ev, hop, hphase⟩ := henabled
      exact ⟨_, rfl, h.modify rfl hop (SendOp.onBegan_sound (h.sound i op hop) hphase hr ctx)⟩
  | wait i =>
      obtain ⟨op, ev, ctx, hop, hphase⟩ := henabled
      exact ⟨_, rfl, h.modify rfl hop (SendOp.wait_sound (h.sound i op hop) hphase rfl)⟩
  | finish i hr reply =>
      obtain ⟨op, ev, ctx, hop, hphase⟩ := henabled
      exact ⟨_, rfl, h.modify rfl hop (SendOp.onWaited_sound (h.sound i op hop) hphase hr reply)⟩
  | invoke c => exact invoke_concurrent h hallow
  | release c => exact ⟨_, rfl, release_concurrent h henabled⟩

theorem run_concurrent (hrun : (machine μ κ).Run Transport new labels s) :
    Concurrent labels s := by
  apply hrun.invariant Concurrent new_concurrent
  intro labels s label s' h hallow henabled hx
  obtain ⟨next, hnext, hconcurrent⟩ := exec_concurrent h hallow henabled
  obtain rfl : next = s' := Except.ok.inj (hnext.symm.trans hx)
  exact hconcurrent

-- Nothing is left to do but to send: BeginRequest has returned to every
-- operation, its callback was invoked if it has not failed, and no wait that
-- has fired is pending.
def Quiet (labels : List (SendLabel μ κ)) (s : ClientConnection μ κ) : Prop :=
  ∀ label, Transport labels s label → s.Enabled label → ∃ req, label = .send req

theorem Concurrent.completed_of_quiet (h : Concurrent labels s) (hquiet : Quiet labels s)
    {op : SendOp μ κ} (hmem : op ∈ s.ops) : op.phase = .completed := by
  obtain ⟨i, hi, hop⟩ := List.mem_iff_getElem.mp hmem
  have hop : s.ops[i]? = some op := by rw [List.getElem?_eq_getElem hi, hop]
  have hsound := h.sound i op hop
  have htold := hsound.told
  cases hphase : op.phase with
  | composed =>
      obtain ⟨_, hsend⟩ := hquiet (.begin i) trivial ⟨op, hop, hphase⟩
      exact absurd hsend (by simp)
  | beginning ev =>
      obtain ⟨_, hsend⟩ := hquiet (.began i sOk none) (fun hr => absurd rfl hr)
        ⟨op, ev, hop, hphase⟩
      exact absurd hsend (by simp)
  | begun ev ctx =>
      obtain ⟨_, hsend⟩ := hquiet (.wait i) trivial ⟨op, ev, ctx, hop, hphase⟩
      exact absurd hsend (by simp)
  | waiting ev ctx fired =>
      simp only [SendOp.Told, hphase] at htold
      obtain ⟨rfl, hfired, hsent, hbegan, -⟩ := htold
      cases fired with
      | true =>
          obtain ⟨_, hsend⟩ := hquiet (.finish ev sOk none) trivial ⟨op, ev, ctx, hop, hphase⟩
          exact absurd hsend (by simp)
      | false =>
          have hnot : .invoke ev ∉ labels := by
            rw [← hsound.invoked, ← hfired]
            simp
          have hallow : Transport labels s (.invoke ev) := by
            refine ⟨hnot, op, hmem, hsound.made, by simp [hsent], ?_⟩
            intro hr ctx hr'
            rw [hbegan] at hr'
            exact (Prod.mk.inj (Option.some.inj hr')).1.symm
          obtain ⟨_, hsend⟩ := hquiet (.invoke ev) hallow trivial
          exact absurd hsend (by simp)
  | completed => rfl

theorem Concurrent.told_cases (h : Concurrent labels s) {op : SendOp μ κ} (hmem : op ∈ s.ops) :
    (op.phase ≠ .completed ∧ op.Untold ∧ ∀ hr ctx, op.began = some (hr, ctx) → hr = sOk) ∨
      op.phase = .completed ∧ op.sent = [(op.req, sendTimeout)] ∧ (op.Failed ∨ op.Answered) := by
  obtain ⟨i, hi, hop⟩ := List.mem_iff_getElem.mp hmem
  have hop : s.ops[i]? = some op := by rw [List.getElem?_eq_getElem hi, hop]
  have htold := (h.sound i op hop).told
  unfold SendOp.Told at htold
  split at htold
  · rename_i hphase
    obtain ⟨-, hbegan, huntold, -⟩ := htold
    exact .inl ⟨by simp [hphase], huntold, by simp [hbegan]⟩
  · rename_i hphase
    obtain ⟨-, -, hbegan, huntold⟩ := htold
    exact .inl ⟨by simp [hphase], huntold, by simp [hbegan]⟩
  · rename_i hphase
    obtain ⟨-, -, hbegan, huntold⟩ := htold
    exact .inl ⟨by simp [hphase], huntold, by simp [hbegan]⟩
  · rename_i hphase
    obtain ⟨-, -, -, hbegan, huntold⟩ := htold
    exact .inl ⟨by simp [hphase], huntold, by simp [hbegan]⟩
  · rename_i hphase
    exact .inr ⟨hphase, htold⟩

-- An operation takes at most six steps after it was sent.
theorem Concurrent.steps_le (h : Concurrent labels s) (i : ℕ) :
    (labels.filter (·.op = some i)).length ≤ 6 := by
  by_cases hi : i < s.ops.length
  · have hsteps := (h.sound i _ (List.getElem?_eq_getElem hi)).steps
    have hphase (phase : SendPhase κ) : phase.rank ≤ 4 := by
      cases phase <;> simp [SendPhase.rank]
    have hcallback (callback : PrivateCallback) : callback.rank ≤ 2 := by
      unfold PrivateCallback.rank
      split <;> omega
    have h1 := hphase s.ops[i].phase
    have h2 := hcallback (s.callbacks i)
    omega
  · have hnone : labels.filter (·.op = some i) = [] := by
      rw [List.filter_eq_nil_iff]
      intro label hmem heq
      exact hi (h.known label hmem i (by simpa using heq))
    rw [hnone]
    exact Nat.zero_le _

-- Concurrent sends do not interfere, in whatever order the transport invokes
-- their callbacks. No assertion fails. An operation tells its handler nothing
-- until it is done, and then once: the error of its BeginRequest, without a call
-- of EndRequest, or what EndRequest gave for its own context. All are done when
-- there is nothing more to do, which is after six steps each at the latest.
theorem concurrent_sends_do_not_interfere (hrun : (machine μ κ).Run Transport new labels s) :
    (∀ label, Transport labels s label → s.Enabled label → ∃ s', s.exec label = .ok s') ∧
    (∀ op ∈ s.ops, op.Untold ∧ (∀ hr ctx, op.began = some (hr, ctx) → hr = sOk) ∨
      op.sent = [(op.req, sendTimeout)] ∧ (op.Failed ∨ op.Answered)) ∧
    (Quiet labels s → ∀ op ∈ s.ops, op.Failed ∨ op.Answered) ∧
    ∀ i, (labels.filter (·.op = some i)).length ≤ 6 := by
  have h := run_concurrent hrun
  refine ⟨?_, ?_, ?_, h.steps_le⟩
  · intro label hallow henabled
    obtain ⟨s', hx, -⟩ := exec_concurrent h hallow henabled
    exact ⟨s', hx⟩
  · intro op hmem
    rcases h.told_cases hmem with ⟨-, huntold⟩ | ⟨-, hdone⟩
    · exact .inl huntold
    · exact .inr hdone
  · intro hquiet op hmem
    have hphase := h.completed_of_quiet hquiet hmem
    rcases h.told_cases hmem with ⟨hne, -⟩ | ⟨-, -, hdone⟩
    · exact absurd hphase hne
    · exact hdone

-- Two operations. The second is called back inside its BeginRequest, and the
-- first while it waits. The handlers are called in the order of the callbacks.
theorem concurrent_sends_do_not_interfere_two :
    ∃ (labels : List (SendLabel ℕ ℕ)) (s : ClientConnection ℕ ℕ),
      labels = [.send 7, .send 8, .begin 0, .began 0 sOk (some 70), .wait 0, .begin 1, .invoke 1,
        .began 1 sOk (some 80), .release 1, .wait 1, .finish 1 sOk (some 9), .invoke 0,
        .finish 0 (-5) none] ∧
      (machine ℕ ℕ).Run Transport new labels s ∧
      s.ops.map SendOp.handled = [[(-5, none)], [(sOk, some 9)]] ∧
      ∀ op ∈ s.ops, op.sent = [(op.req, sendTimeout)] ∧ (op.Failed ∨ op.Answered) := by
  obtain ⟨s, hrun, hhandled⟩ : ∃ s, (machine ℕ ℕ).Run Transport new
      [.send 7, .send 8, .begin 0, .began 0 sOk (some 70), .wait 0, .begin 1, .invoke 1,
        .began 1 sOk (some 80), .release 1, .wait 1, .finish 1 sOk (some 9), .invoke 0,
        .finish 0 (-5) none] s ∧
      s.ops.map SendOp.handled = [[(-5, none)], [(sOk, some 9)]] := by
    refine ⟨_, .snoc (.snoc (.snoc (.snoc (.snoc (.snoc (.snoc (.snoc (.snoc (.snoc (.snoc (.snoc
      (.snoc .nil trivial trivial rfl) trivial trivial rfl) trivial ?_ rfl) ?_ ?_ rfl)
      trivial ?_ rfl) trivial ?_ rfl) ?_ trivial rfl) ?_ ?_ rfl) trivial ?_ rfl)
      trivial ?_ rfl) trivial ?_ rfl) ?_ trivial rfl) trivial ?_ rfl, rfl⟩
    · exact ⟨_, rfl, rfl⟩
    · exact absurd rfl
    · exact ⟨_, _, rfl, rfl⟩
    · exact ⟨_, _, _, rfl, rfl⟩
    · exact ⟨_, rfl, rfl⟩
    · exact ⟨by decide, _, List.mem_cons_of_mem _ List.mem_cons_self, rfl, List.cons_ne_nil _ _,
        nofun⟩
    · exact absurd rfl
    · exact ⟨_, _, rfl, rfl⟩
    · exact rfl
    · exact ⟨_, _, _, rfl, rfl⟩
    · exact ⟨_, _, _, rfl, rfl⟩
    · refine ⟨by decide, _, List.mem_cons_self, rfl, List.cons_ne_nil _ _, ?_⟩
      intro hr ctx hbegan
      exact (Prod.mk.inj (Option.some.inj hbegan)).1.symm
    · exact ⟨_, _, _, rfl, rfl⟩
  refine ⟨_, s, rfl, hrun, hhandled, ?_⟩
  intro op hmem
  rcases (concurrent_sends_do_not_interfere hrun).2.1 op hmem with ⟨⟨-, hnone⟩, -⟩ | hdone
  · have htold := List.mem_map_of_mem (f := SendOp.handled) hmem
    rw [hhandled, hnone] at htold
    exact absurd htold (by decide)
  · exact hdone

end ClientConnection

end FabricRpc.V2
