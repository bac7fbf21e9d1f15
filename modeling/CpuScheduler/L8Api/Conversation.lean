import CpuScheduler.L8Api.ClientRequests

/-!
# What the clients of the management server see

A run of the server, with any packets in any order and whatever the rest of the
system does between them, is a conversation: some packets ask for something of
the map of `TaskMap`, and each of these gets one message. `conversation_refines`
says that the messages are the replies of the map to these requests, one after
the other, and that the map is the one of the tasks at the end.
-/
namespace CpuScheduler.L8

open L4

section
variable {T : Nat} {s t : OsState T}

/-- The exchanges of a run: the requests for the map, each with the message that
the client gets. -/
inductive Conversation : Management T → List (ManagementStep T) → List (MapRequest × L6.Message) → Management T → Prop
  | nil (σ : Management T) : Conversation σ [] [] σ
  | silent {σ τ υ : Management T} {l : ManagementStep T} {ls : List (ManagementStep T)}
      {exchanges : List (MapRequest × L6.Message)} : σ.step l τ → σ.request l = none →
    Conversation τ ls exchanges υ → Conversation σ (l :: ls) exchanges υ
  | exchange {σ τ υ : Management T} {p : Packet} {q : MapRequest} {message : L6.Message}
      {ls : List (ManagementStep T)} {exchanges : List (MapRequest × L6.Message)} : σ.step (.packet p) τ →
    σ.request (.packet p) = some q → Replies σ τ p message → Conversation τ ls exchanges υ →
    Conversation σ (.packet p :: ls) ((q, message) :: exchanges) υ

/-- The messages are the replies of the map, and the map is that of the tasks. -/
structure RepliesOfMap (s t : OsState T) (exchanges : List (MapRequest × L6.Message)) : Prop where
  replies : exchanges.map (fun e => reads e.2) =
    ((taskMap s).run (TASK_MANAGER_MAX_TASKS T) (maxRunning s) (exchanges.map Prod.fst)).1
  map : taskMap t = ((taskMap s).run (TASK_MANAGER_MAX_TASKS T) (maxRunning s) (exchanges.map Prod.fst)).2

theorem RepliesOfMap.silent {u : OsState T} {exchanges : List (MapRequest × L6.Message)}
    (h : RepliesOfMap t u exchanges) (hmap : taskMap t = taskMap s) (hkernel : t.kernelTasks = s.kernelTasks) :
    RepliesOfMap s u exchanges := by
  obtain ⟨hreplies, hlast⟩ := h
  rw [maxRunning_eq hkernel, hmap] at hreplies hlast
  exact ⟨hreplies, hlast⟩

theorem RepliesOfMap.exchange {u : OsState T} {exchanges : List (MapRequest × L6.Message)} {q : MapRequest}
    {message : L6.Message} (h : RepliesOfMap t u exchanges) (hkernel : t.kernelTasks = s.kernelTasks)
    (hreads : reads message = ((taskMap s).step (TASK_MANAGER_MAX_TASKS T) (maxRunning s) q).1)
    (hmap : taskMap t = ((taskMap s).step (TASK_MANAGER_MAX_TASKS T) (maxRunning s) q).2) :
    RepliesOfMap s u ((q, message) :: exchanges) := by
  obtain ⟨hreplies, hlast⟩ := h
  rw [maxRunning_eq hkernel, hmap] at hreplies hlast
  refine ⟨?_, hlast⟩
  rw [List.map_cons, hreplies, hreads]
  rfl

/-- Every run of the server is a conversation with the map. -/
theorem conversation_refines (hT : T ≤ 256) (reserved : Set Nat) (σ τ : Management T) (ls : List (ManagementStep T))
    (hσ : (managementLTS T reserved).Reachable σ) (hrun : (managementLTS T reserved).Run σ ls τ) :
    ∃ exchanges, Conversation σ ls exchanges τ ∧ RepliesOfMap σ.os τ.os exchanges := by
  have h := (managementInv_inductive hT).reachable σ hσ
  clear hσ
  induction hrun with
  | nil σ => exact ⟨[], .nil σ, rfl, rfl⟩
  | @cons σ τ υ l ls hstep _ ih =>
    obtain ⟨hinv, hkernel, hanswered⟩ := steps_step hT h hstep
    obtain ⟨exchanges, hconversation, hreplies⟩ := ih hinv
    unfold Answered at hanswered
    cases hq : σ.request l with
    | none =>
      rw [hq] at hanswered
      exact ⟨exchanges, .silent hstep hq hconversation, hreplies.silent hanswered hkernel⟩
    | some q =>
      rw [hq] at hanswered
      obtain ⟨p, message, rfl, hsent, hreads, hmap⟩ := hanswered
      exact ⟨(q, message) :: exchanges, .exchange hstep hq hsent hconversation, hreplies.exchange hkernel hreads hmap⟩

end

/-- The run with this packet is one exchange. -/
theorem conversation_refines_getState : ∃ τ message,
    Conversation bootedManagement [.packet getStatePacket] [(.get 7, message)] τ ∧
      reads message = (NOT_FOUND_RESPONSE_CODE, none) := by
  obtain ⟨τ, hstep, -⟩ := step_getState
  obtain ⟨exchanges, hconversation, hreplies, -⟩ := conversation_refines (by decide) bootedPages bootedManagement τ
    [.packet getStatePacket] reachable_booted (.cons hstep (.nil τ))
  have hinv := (managementInv_inductive (by decide)).reachable _ reachable_booted
  have hrequest := (request_understood hinv sends_getState isRequest_getState).1 hasRoom_booted
  have hcopy := hconversation
  cases hcopy with
  | silent _ hnone _ => exact absurd (hnone.symm.trans hrequest) (by simp)
  | exchange _ hq _ hrest =>
    cases hrest
    cases hq.symm.trans hrequest
    refine ⟨τ, _, hconversation, (List.cons.inj hreplies).1.trans ?_⟩
    rw [TaskMap.step, show taskMap bootedManagement.os 7 = none from taskMap_booted 7]

end CpuScheduler.L8
