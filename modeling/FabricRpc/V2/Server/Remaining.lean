import FabricRpc.V2.AcceptNet.Remaining
import FabricRpc.V2.Server.Isolation
import FabricRpc.V2.Server.Steps

namespace FabricRpc.V2

-- The end of a wait regains four steps, as above.
def AcceptStep.regained : AcceptStep → ℕ
  | .complete _ _ => 4
  | _ => 0

theorem AcceptStep.label_regained {τ κ ρ : Type*} (c : ρ) (step : AcceptStep) :
    (step.label c : AcceptLabel τ κ ρ).regained = step.regained := by
  cases step <;> rfl

theorem AcceptStep.label_object {τ κ ρ : Type*} (c : ρ) {step : AcceptStep}
    (hstep : step ≠ .cancel) : (step.label c : AcceptLabel τ κ ρ).object = some c := by
  cases step <;> first | rfl | exact absurd rfl hstep

-- The connections that a step makes.
def ServerLabel.connects {ι μ ψ : Type*} : ServerLabel ι μ ψ → ℕ
  | .acceptConn (.complete _ _) => 1
  | _ => 0

-- The requests that a step hands over,
def ServerLabel.hands {ι μ ψ : Type*} : ServerLabel ι μ ψ → ℕ
  | .accept _ (.complete _ _) => 1
  | _ => 0

-- and whether it is a step of a loop.
def ServerLabel.own {ι μ ψ : Type*} : ServerLabel ι μ ψ → ℕ
  | .acceptConn _ => 1
  | .accept _ _ => 1
  | _ => 0

namespace Server

variable {ι μ ψ : Type*} [DecidableEq ι] {s s' : Server ι μ ψ} {label : ServerLabel ι μ ψ}
  {labels : List (ServerLabel ι μ ψ)}

-- The contract of the transport and of the loops, for the acceptor
theorem lobby_oneAtATime (hallow : Contract labels s label)
    {l : AcceptLabel ℕ Unit Unit} (hl : s.lobbyLabel label = some l) :
    AcceptNet.OneAtATime [] s.lobby l := by
  cases label with
  | processConnect clientId callback =>
      obtain rfl := Option.some.inj hl
      exact trivial
  | acceptConn step =>
      obtain rfl := Option.some.inj hl
      exact hallow
  | _ => exact absurd hl (by simp [lobbyLabel])

-- and for the server connections.
theorem net_oneAtATime (h : Isolated labels s) (hallow : Contract labels s label)
    {l : AcceptLabel (Request ι μ ψ) ℕ ℕ} (hl : s.netLabel label = some l) :
    AcceptNet.OneAtATime [] s.net l := by
  cases label with
  | processRequest clientId message callback =>
      obtain ⟨entry, -, rfl⟩ := Option.map_eq_some_iff.mp hl
      exact trivial
  | acceptConn step =>
      cases step with
      | complete i error =>
          obtain ⟨entry, -, rfl⟩ := Option.map_eq_some_iff.mp hl
          change s.net.home s.accepted = none
          rw [h.homes, h.accepted]
          exact List.getElem?_eq_none (Nat.le_refl _)
      | _ => exact absurd hl (by simp [netLabel])
  | accept c step =>
      obtain rfl := Option.some.inj hl
      exact hallow
  | _ => exact absurd hl (by simp [netLabel])

theorem exec_lobby_remaining (h : Isolated labels s) (hallow : Contract labels s label)
    (henabled : s.Enabled label) (hx : s.exec label = .ok s') :
    (∀ step, label = .acceptConn step →
      (s'.lobby.ports ()).remaining + 1 = (s.lobby.ports ()).remaining + step.regained) ∧
    ((∀ step, label ≠ .acceptConn step) →
      (s'.lobby.ports ()).remaining = (s.lobby.ports ()).remaining) := by
  rcases exec_lobby hx with ⟨hnone, hsame⟩ | ⟨l, hl, hstep⟩
  · refine ⟨?_, fun _ => by rw [hsame]⟩
    rintro step rfl
    exact absurd hnone (by simp [lobbyLabel])
  · obtain ⟨hothers, hown⟩ := AcceptNet.exec_remaining h.lobby.toSequential
      (lobby_oneAtATime hallow hl) (lobbyLabel_enabled henabled hl) hstep
    constructor
    · rintro step rfl
      obtain rfl := Option.some.inj hl
      have hcancel : step ≠ .cancel := by
        rintro rfl
        exact hallow.elim
      simpa only [AcceptStep.label_regained] using hown () (AcceptStep.label_object () hcancel)
    · intro hlabel
      apply hothers
      cases label with
      | processConnect clientId callback =>
          obtain rfl := Option.some.inj hl
          simp [AcceptLabel.object]
      | acceptConn step => exact absurd rfl (hlabel step)
      | _ => exact absurd hl (by simp [lobbyLabel])

theorem exec_net_remaining (h : Isolated labels s) (hallow : Contract labels s label)
    (henabled : s.Enabled label) (hx : s.exec label = .ok s') (c : ℕ) :
    (∀ step, label = .accept c step →
      (s'.net.ports c).remaining + 1 = (s.net.ports c).remaining + step.regained) ∧
    ((∀ step, label ≠ .accept c step) →
      (s'.net.ports c).remaining = (s.net.ports c).remaining) := by
  rcases exec_net hx with ⟨hnone, hsame⟩ | ⟨l, hl, hstep⟩
  · refine ⟨?_, fun _ => by rw [hsame]⟩
    rintro step rfl
    exact absurd hnone (by simp [netLabel])
  · obtain ⟨hothers, hown⟩ := AcceptNet.exec_remaining h.net.toSequential
      (net_oneAtATime h hallow hl) (netLabel_enabled henabled hl) hstep
    constructor
    · rintro step rfl
      obtain rfl := Option.some.inj hl
      have hcancel : step ≠ .cancel := by
        rintro rfl
        exact hallow.elim
      simpa only [AcceptStep.label_regained] using hown c (AcceptStep.label_object c hcancel)
    · intro hlabel
      apply hothers
      cases label with
      | processRequest clientId message callback =>
          obtain ⟨entry, -, rfl⟩ := Option.map_eq_some_iff.mp hl
          simp [AcceptLabel.object]
      | acceptConn step =>
          cases step with
          | complete i error =>
              obtain ⟨entry, -, rfl⟩ := Option.map_eq_some_iff.mp hl
              simp [AcceptLabel.object]
          | _ => exact absurd hl (by simp [netLabel])
      | accept d step =>
          obtain rfl := Option.some.inj hl
          have hcancel : step ≠ .cancel := by
            rintro rfl
            exact hallow.elim
          rw [AcceptStep.label_object d hcancel]
          intro hdc
          exact hlabel step (by rw [Option.some.inj hdc])
      | _ => exact absurd hl (by simp [netLabel])

-- A connection is made by the end of a wait of the acceptor.
theorem exec_accepted (hx : s.exec label = .ok s') : s'.accepted = s.accepted + label.connects := by
  cases label with
  | processConnect clientId callback =>
      obtain rfl := Except.ok.inj hx
      rfl
  | processDisconnect clientId callback =>
      obtain ⟨entry, -, rfl⟩ := disconnect_ok hx
      rfl
  | processRequest clientId message callback =>
      obtain ⟨entry, -, rfl⟩ := request_ok hx
      rfl
  | acceptConn step =>
      rcases acceptConn_ok hx with ⟨i, error, rfl, hcomplete⟩ | ⟨hstep, lobby, -, rfl⟩
      · obtain ⟨lobby, net, entry, -, -, -, rfl⟩ := completeConn_ok hcomplete
        rfl
      · cases step with
        | complete i error => exact absurd rfl (hstep i error)
        | _ => rfl
  | accept c step =>
      obtain ⟨net, -, rfl⟩ := accept_ok hx
      rfl
  | complete req hr replyMsg =>
      obtain ⟨ctx, -, rfl⟩ := complete_ok hx
      rfl

-- and only the end of a wait of a connection hands something over.
theorem exec_handed_of_ne (hx : s.exec label = .ok s')
    (hlabel : ∀ c i error, label ≠ .accept c (.complete i error)) :
    s'.net.handed = s.net.handed := by
  rcases exec_net hx with ⟨-, hsame⟩ | ⟨l, hl, hstep⟩
  · rw [hsame]
  · refine AcceptNet.exec_handed hstep ?_
    rintro c i error rfl
    cases label with
    | processRequest clientId message callback =>
        obtain ⟨entry, -, heq⟩ := Option.map_eq_some_iff.mp hl
        exact absurd heq (by simp)
    | acceptConn step =>
        cases step with
        | complete j failed =>
            obtain ⟨entry, -, heq⟩ := Option.map_eq_some_iff.mp hl
            exact absurd heq (by simp)
        | _ => exact absurd hl (by simp [netLabel])
    | accept d step =>
        cases step with
        | complete j failed => exact hlabel d j failed rfl
        | _ => exact absurd hl (by simp [netLabel, AcceptStep.label])
    | _ => exact absurd hl (by simp [netLabel])

-- The steps that all loops take until they wait.
def remaining (s : Server ι μ ψ) : ℕ :=
  (s.lobby.ports ()).remaining + ∑ c ∈ Finset.range s.accepted, (s.net.ports c).remaining

omit [DecidableEq ι] in
-- A sum in which one term changes.
theorem sum_range_change {n c : ℕ} (hc : c < n) {f g : ℕ → ℕ} (hsame : ∀ d, d ≠ c → g d = f d) :
    ∑ d ∈ Finset.range n, g d + f c = ∑ d ∈ Finset.range n, f d + g c := by
  rw [← Finset.sum_erase_add _ _ (Finset.mem_range.mpr hc),
    ← Finset.sum_erase_add _ _ (Finset.mem_range.mpr hc)]
  have hrest : ∑ d ∈ (Finset.range n).erase c, g d = ∑ d ∈ (Finset.range n).erase c, f d :=
    Finset.sum_congr rfl fun d hd => hsame d (Finset.ne_of_mem_erase hd)
  omega

-- A connection that takes a step was accepted before.
theorem accept_lt (h : Isolated labels s) {c : ℕ} {step : AcceptStep}
    (hallow : Contract labels s (.accept c step)) (henabled : s.Enabled (.accept c step)) :
    c < s.accepted := by
  have hhome : (s.net.home c).isSome := by
    have hbusy {i : ℕ} {phase : Phase} (hi : (s.net.ports c).accepts[i]? = some phase) :
        (s.net.home c).isSome := by
      apply h.net.homed
      intro hnil
      simp [hnil] at hi
    cases step with
    | start => exact hallow.1
    | pop i => exact hbusy henabled
    | wait i => exact hbusy henabled
    | complete i error =>
        obtain ⟨fired, hi, -⟩ := henabled
        exact hbusy hi
    | cancel => exact hallow.elim
  rw [h.homes] at hhome
  obtain ⟨entry, hentry⟩ := Option.isSome_iff_exists.mp hhome
  rw [h.accepted]
  exact (List.getElem?_eq_some_iff.mp hentry).1

-- What a step does to what remains: a step of a loop is one less, a connection
-- brings its own loop and that of the listener back to the start, and a request
-- the loop of its connection.
theorem exec_server_remaining (h : Isolated labels s) (hallow : Contract labels s label)
    (henabled : s.Enabled label) (hx : s.exec label = .ok s') :
    label.own + s'.remaining = s.remaining + 7 * label.connects + 4 * label.hands := by
  obtain ⟨hlobby, hlobbySame⟩ := exec_lobby_remaining h hallow henabled hx
  have hnet := exec_net_remaining h hallow henabled hx
  have haccepted := exec_accepted hx
  cases label with
  | acceptConn step =>
      have hsame : ∀ c, (s'.net.ports c).remaining = (s.net.ports c).remaining :=
        fun c => (hnet c).2 (by simp)
      have hstep := hlobby step rfl
      simp only [remaining, haccepted, hsame]
      cases step with
      | complete i error =>
          have hfresh : (s.net.ports s.accepted).remaining = 3 := by
            rw [Port.remaining_eq_three]
            by_contra hbusy
            have hhome := h.net.homed _ hbusy
            rw [h.homes, h.accepted, List.getElem?_eq_none (Nat.le_refl _)] at hhome
            exact absurd hhome (by simp)
          simp only [AcceptStep.regained, ServerLabel.connects, ServerLabel.hands,
            ServerLabel.own, Finset.sum_range_succ, hfresh] at hstep ⊢
          omega
      | _ =>
          simp only [AcceptStep.regained, ServerLabel.connects, ServerLabel.hands,
            ServerLabel.own, Nat.add_zero] at hstep ⊢
          omega
  | accept c step =>
      have hsum := sum_range_change (accept_lt h hallow henabled)
        (f := fun d => (s.net.ports d).remaining) (g := fun d => (s'.net.ports d).remaining)
        fun d hd => (hnet d).2 (by simp [Ne.symm hd])
      have hstep := (hnet c).1 step rfl
      simp only [remaining, haccepted, hlobbySame (by simp)]
      cases step <;>
        simp only [AcceptStep.regained, ServerLabel.connects, ServerLabel.hands,
          ServerLabel.own, Nat.add_zero] at hstep ⊢ <;> omega
  | _ =>
      have hsame : ∀ c, (s'.net.ports c).remaining = (s.net.ports c).remaining :=
        fun c => (hnet c).2 (by simp)
      simp only [remaining, haccepted, hsame, hlobbySame (by simp), ServerLabel.connects,
        ServerLabel.hands, ServerLabel.own, Nat.add_zero]
      omega

end Server

end FabricRpc.V2
