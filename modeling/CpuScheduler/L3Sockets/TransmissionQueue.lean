import CpuScheduler.Core.DoublyLinked
import CpuScheduler.L3Sockets.Ownership

/-!
# The transmission queue

The request elements of the socket manager are in one of two lists: the
doubly linked list of transmission requests, which the network task walks, and
the list of unused elements. `Queue s xs` says so, `xs` being the elements of
the first list in its order; the operations on the list are described on `xs`.
-/
namespace CpuScheduler.L3

open Links Word L2 SocketManager

abbrev ReqElem := Fin MAX_NUM_TRANSMISSION_REQUESTS

namespace SocketManager

variable {T : Nat}

structure Queue (s : SocketManager T) (xs : List ReqElem) : Prop where
  requests : DList s.next s.prev s.transmissionRequestsHead s.transmissionRequestsTail xs
  unused : ∃ ys, Seg s.next s.unusedTransmissionRequestsHead ys none ∧ (xs ++ ys).Nodup

/-- The two lists: the requests are `xs`, the unused elements `ys`. -/
structure Lists (s : SocketManager T) (xs ys : List ReqElem) : Prop where
  requests : DList s.next s.prev s.transmissionRequestsHead s.transmissionRequestsTail xs
  unused : Seg s.next s.unusedTransmissionRequestsHead ys none
  nodup : (xs ++ ys).Nodup

theorem Queue.lists {s : SocketManager T} {xs : List ReqElem} (h : Queue s xs) : ∃ ys, Lists s xs ys := by
  obtain ⟨hrequests, ys, hys, hnd⟩ := h
  exact ⟨ys, hrequests, hys, hnd⟩

theorem Lists.queue {s : SocketManager T} {xs ys : List ReqElem} (h : Lists s xs ys) : Queue s xs :=
  ⟨h.requests, ys, h.unused, h.nodup⟩

/-- Everything but the two lists is the same. -/
structure SameTables (s s' : SocketManager T) : Prop where
  socketDescs : s'.socketDescs = s.socketDescs
  udpPortStates : s'.udpPortStates = s.udpPortStates

/-- A call that leaves the two lists alone. -/
structure SameQueue (s s' : SocketManager T) : Prop where
  next : s'.next = s.next
  prev : s'.prev = s.prev
  request : s'.request = s.request
  head : s'.transmissionRequestsHead = s.transmissionRequestsHead
  tail : s'.transmissionRequestsTail = s.transmissionRequestsTail
  unused : s'.unusedTransmissionRequestsHead = s.unusedTransmissionRequestsHead

theorem SameQueue.refl (s : SocketManager T) : SameQueue s s := ⟨rfl, rfl, rfl, rfl, rfl, rfl⟩

theorem sameQueue_setDesc (s : SocketManager T) (t : Fin T) (i : SocketID) (d : SocketDesc) :
    SameQueue s (s.setDesc t i d) := ⟨rfl, rfl, rfl, rfl, rfl, rfl⟩

theorem SameQueue.lists {s s' : SocketManager T} {xs ys : List ReqElem} (h : SameQueue s s') (hl : Lists s xs ys) :
    Lists s' xs ys := by
  refine ⟨?_, ?_, hl.nodup⟩
  · rw [h.next, h.prev, h.head, h.tail]
    exact hl.requests
  · rw [h.next, h.unused]
    exact hl.unused

theorem SameQueue.queue {s s' : SocketManager T} {xs : List ReqElem} (h : SameQueue s s') (hq : Queue s xs) :
    Queue s' xs := by
  obtain ⟨ys, hl⟩ := hq.lists
  exact (h.lists hl).queue

/-- Every request of `s` is one of `t`. -/
def RequestsKept (s t : SocketManager T) : Prop :=
  ∀ xs, Queue s xs → ∃ xs', Queue t xs' ∧ ∀ e ∈ xs, e ∈ xs' ∧ t.request e = s.request e

theorem requestsKept_of_sameQueue {s t : SocketManager T} (h : SameQueue s t) : RequestsKept s t :=
  fun xs hq => ⟨xs, h.queue hq, fun e he => ⟨he, by rw [h.request]⟩⟩

theorem Queue.unique {s : SocketManager T} {xs xs' : List ReqElem} (h : Queue s xs) (h' : Queue s xs') : xs = xs' :=
  h.requests.forward.unique h'.requests.forward

/-- The constructor chains all elements into the list of unused ones. -/
theorem lists_init (old : SocketManager T) :
    Lists (SocketManager.init old) [] (List.finRange MAX_NUM_TRANSMISSION_REQUESTS) := by
  refine ⟨⟨rfl, rfl, List.nodup_nil⟩, ?_, List.nodup_finRange _⟩
  exact ⟨rfl, rfl, rfl, rfl, rfl, rfl, rfl, rfl, rfl, rfl, rfl, rfl, rfl, rfl, rfl, rfl⟩

/-- The first unused element becomes the first request. -/
theorem addRequest_lists {s s' : SocketManager T} {udpPort : UInt16} {xs ys : List ReqElem} (hl : Lists s xs ys)
    (h : s.addRequest udpPort = some s') :
    ∃ e ys', ys = e :: ys' ∧ e ∉ xs ∧ Lists s' (e :: xs) ys' ∧ s'.request = Function.update s.request e udpPort ∧
      SameTables s s' := by
  obtain ⟨hrequests, hys, hnd⟩ := hl
  unfold addRequest at h
  cases ys with
  | nil =>
    rw [(hys : s.unusedTransmissionRequestsHead = none)] at h
    cases h
  | cons e ys =>
    rw [hys.1] at h
    obtain ⟨_, hnd', hdisj⟩ := List.nodup_append.mp hnd
    have he : e ∉ xs := fun hx => hdisj e hx e (by simp) rfl
    have hys' : Seg (Function.update s.next e s.transmissionRequestsHead) (s.next e) ys none :=
      hys.2.update (List.nodup_cons.mp hnd').1
    have hnodup : ((e :: xs) ++ ys).Nodup := by
      rw [List.cons_append, List.nodup_middle.symm]
      exact hnd
    cases hhead : s.transmissionRequestsHead with
    | none =>
      rw [hhead] at hrequests hys'
      simp only [Option.map_some, hhead] at h
      cases h
      exact ⟨e, ys, rfl, he, ⟨hrequests.push e, hys', hnodup⟩, rfl, rfl, rfl⟩
    | some head =>
      rw [hhead] at hrequests hys'
      simp only [Option.map_some, hhead] at h
      cases h
      exact ⟨e, ys, rfl, he, ⟨hrequests.pushFront he, hys', hnodup⟩, rfl, rfl, rfl⟩

theorem addRequest_queue {s s' : SocketManager T} {udpPort : UInt16} {xs : List ReqElem} (hq : Queue s xs)
    (h : s.addRequest udpPort = some s') :
    ∃ e, e ∉ xs ∧ Queue s' (e :: xs) ∧ s'.request = Function.update s.request e udpPort ∧ SameTables s s' := by
  obtain ⟨ys, hl⟩ := hq.lists
  obtain ⟨e, _, _, he, hl', hsame⟩ := addRequest_lists hl h
  exact ⟨e, he, hl'.queue, hsame⟩

theorem remove_eq {s : SocketManager T} {as bs : List ReqElem} {e : ReqElem}
    (h : DList s.next s.prev s.transmissionRequestsHead s.transmissionRequestsTail (as ++ e :: bs)) :
    s.remove (some e) =
      ({ s with
        next := Function.update (setLink s.next (s.prev e) (s.next e)) e s.unusedTransmissionRequestsHead
        prev := setLink s.prev (s.next e) (s.prev e)
        transmissionRequestsHead := setEnd s.transmissionRequestsHead (s.prev e) (s.next e)
        transmissionRequestsTail := setEnd s.transmissionRequestsTail (s.next e) (s.prev e)
        unusedTransmissionRequestsHead := some e }, s.next e) := by
  -- the link of `e` is read again after the one in front of it is written
  have hself : setLink s.next (s.prev e) (s.next e) e = s.next e := by
    refine setLink_of_ne fun hp => ?_
    rw [h.prev_eq] at hp
    exact (List.nodup_append.mp h.nodup).2.2 e (List.mem_of_getLast? hp) e (by simp) rfl
  cases hp : s.prev e with
  | none => cases hn : s.next e <;> simp [remove, hp, hn, setLink, setEnd]
  | some p =>
    rw [hp, setLink] at hself
    cases hn : s.next e <;> simp_all [remove, setLink, setEnd]

/-- The request becomes the first unused element, and the iterator goes on to
the next request. -/
theorem remove_lists {s : SocketManager T} {as bs ys : List ReqElem} {e : ReqElem}
    (hl : Lists s (as ++ e :: bs) ys) :
    Lists (s.remove (some e)).1 (as ++ bs) (e :: ys) ∧ (s.remove (some e)).2 = bs.head? ∧
      (s.remove (some e)).1.request = s.request ∧ SameTables s (s.remove (some e)).1 := by
  obtain ⟨hrequests, hys, hnd⟩ := hl
  have hnd' : (e :: (as ++ bs ++ ys)).Nodup := by
    rw [List.append_assoc, List.cons_append] at hnd
    simpa using List.nodup_middle.mp hnd
  have heys : e ∉ ys := fun he => (List.nodup_cons.mp hnd').1 (List.mem_append_right _ he)
  have heb : e ∉ as ++ bs := fun he => (List.nodup_cons.mp hnd').1 (List.mem_append_left _ he)
  have hys' : Seg (setLink s.next (s.prev e) (s.next e)) s.unusedTransmissionRequestsHead ys none := by
    refine hys.congr fun y hy => setLink_of_ne fun hp => ?_
    rw [hrequests.prev_eq] at hp
    exact (List.nodup_append.mp hnd).2.2 y (List.mem_append_left _ (List.mem_of_getLast? hp)) y hy rfl
  rw [remove_eq hrequests]
  refine ⟨⟨hrequests.unlink.update_next heb, ⟨rfl, ?_⟩, List.nodup_middle.mpr hnd'⟩, hrequests.next_eq,
    rfl, rfl, rfl⟩
  simp only [Function.update_self]
  exact hys'.update heys

theorem remove_queue {s : SocketManager T} {as bs : List ReqElem} {e : ReqElem} (hq : Queue s (as ++ e :: bs)) :
    Queue (s.remove (some e)).1 (as ++ bs) ∧ (s.remove (some e)).2 = bs.head? ∧
      (s.remove (some e)).1.request = s.request ∧ SameTables s (s.remove (some e)).1 := by
  obtain ⟨ys, hl⟩ := hq.lists
  obtain ⟨hl', hrest⟩ := remove_lists hl
  exact ⟨hl'.queue, hrest⟩

theorem relocateToEnd_eq {s : SocketManager T} {as bs : List ReqElem} {e q tail : ReqElem}
    (h : DList s.next s.prev s.transmissionRequestsHead s.transmissionRequestsTail (as ++ e :: q :: bs))
    (htail : s.transmissionRequestsTail = some tail) :
    s.relocateToEnd (some e) =
      some ({ s with
        next := Function.update (Function.update (setLink s.next (s.prev e) (s.next e)) tail (some e)) e none
        prev := Function.update (setLink s.prev (s.next e) (s.prev e)) e (some tail)
        transmissionRequestsHead := setEnd s.transmissionRequestsHead (s.prev e) (s.next e)
        transmissionRequestsTail := some e }, some q) := by
  have hn : s.next e = some q := h.next_eq
  have hself : setLink s.prev (s.next e) (s.prev e) e = s.prev e := by
    refine setLink_of_ne fun hq => ?_
    rw [hn, Option.some.injEq] at hq
    subst hq
    exact (List.nodup_cons.mp (List.nodup_append.mp h.nodup).2.1).1 (by simp)
  rw [hn, setLink] at hself
  cases hp : s.prev e <;> simp_all [relocateToEnd, setLink, setEnd]

/-- A request that is not the last goes behind the others; the iterator goes
on to the next. -/
theorem relocateToEnd_lists {s : SocketManager T} {as bs ys : List ReqElem} {e q : ReqElem}
    (hl : Lists s (as ++ e :: q :: bs) ys) :
    ∃ s', s.relocateToEnd (some e) = some (s', some q) ∧ Lists s' (as ++ q :: bs ++ [e]) ys ∧
      s'.request = s.request ∧ SameTables s s' := by
  obtain ⟨hrequests, hys, hnd⟩ := hl
  obtain ⟨tail, htail⟩ : ∃ tail, s.transmissionRequestsTail = some tail := by
    rw [hrequests.tail_eq]
    exact ⟨_, List.getLast?_eq_some_getLast (by simp)⟩
  have hnd' : (e :: (as ++ q :: bs ++ ys)).Nodup := by
    rw [List.append_assoc, List.cons_append] at hnd
    simpa using List.nodup_middle.mp hnd
  have hout {x : ReqElem} (hx : x ∈ as ++ e :: q :: bs) : x ∉ ys :=
    fun hy => (List.nodup_append.mp hnd).2.2 x hx x hy rfl
  have hunlink := hrequests.unlink
  rw [hrequests.next_eq, htail] at hunlink
  have heb : e ∉ as ++ q :: bs := fun he => (List.nodup_cons.mp hnd').1 (List.mem_append_left _ he)
  refine ⟨_, relocateToEnd_eq hrequests htail, ⟨?_, ?_, ?_⟩, rfl, rfl, rfl⟩
  · rw [hrequests.next_eq]
    exact hunlink.pushBack heb
  · have hmem : tail ∈ as ++ e :: q :: bs := List.mem_of_getLast? (hrequests.tail_eq.symm.trans htail)
    refine ((hys.congr fun y hy => setLink_of_ne fun hp => ?_).update (hout hmem)).update (hout (by simp))
    rw [hrequests.prev_eq] at hp
    exact hout (List.mem_append_left _ (List.mem_of_getLast? hp)) hy
  · rw [List.append_assoc, List.singleton_append]
    exact List.nodup_middle.mpr hnd'

theorem relocateToEnd_queue {s : SocketManager T} {as bs : List ReqElem} {e q : ReqElem}
    (hq : Queue s (as ++ e :: q :: bs)) :
    ∃ s', s.relocateToEnd (some e) = some (s', some q) ∧ Queue s' (as ++ q :: bs ++ [e]) ∧
      s'.request = s.request ∧ SameTables s s' := by
  obtain ⟨ys, hl⟩ := hq.lists
  obtain ⟨s', h, hl', hsame⟩ := relocateToEnd_lists hl
  exact ⟨s', h, hl'.queue, hsame⟩

/-- The last request stays where it is, and so does the iterator. -/
theorem relocateToEnd_last {s : SocketManager T} {as : List ReqElem} {e : ReqElem} (hq : Queue s (as ++ [e])) :
    s.relocateToEnd (some e) = some (s, some e) := by
  have hn : s.next e = none := hq.requests.next_eq
  simp [relocateToEnd, hn]

/-! ## Calls that leave the lists alone -/

theorem SameQueue.trans {s s' s'' : SocketManager T} (h : SameQueue s s') (h' : SameQueue s' s'') : SameQueue s s'' :=
  ⟨h'.next.trans h.next, h'.prev.trans h.prev, h'.request.trans h.request, h'.head.trans h.head, h'.tail.trans h.tail,
    h'.unused.trans h.unused⟩

theorem sameQueue_openSocket (s : SocketManager T) (taskID : Fin T) (udpPort : UInt16) :
    SameQueue s (s.openSocket taskID udpPort).2 := by
  unfold openSocket
  split
  · dsimp only
    split
    · exact .refl s
    · split
      · exact .refl s
      · exact ⟨rfl, rfl, rfl, rfl, rfl, rfl⟩
  · exact .refl s

theorem sameQueue_closeSocket {s s' : SocketManager T} {taskID : Fin T} {socketID : UInt8}
    (h : s.closeSocket taskID socketID = some s') : SameQueue s s' := by
  unfold closeSocket at h
  split at h
  · dsimp only at h
    split at h
    · split at h
      · cases h
        exact ⟨rfl, rfl, rfl, rfl, rfl, rfl⟩
      · cases h
    · cases h
      exact .refl s
  · cases h
    exact .refl s

theorem sameQueue_closeLoop {taskID : Fin T} {is : List Nat} {s s' : SocketManager T}
    (h : closeLoop taskID is s = some s') : SameQueue s s' := by
  induction is generalizing s with
  | nil =>
    cases h
    exact .refl _
  | cons i is ih =>
    obtain ⟨s1, h1, h2⟩ := Option.bind_eq_some_iff.mp h
    exact (sameQueue_closeSocket h1).trans (ih h2)

theorem sameQueue_setReceiveBuffer (s : SocketManager T) (taskID : Fin T) (socketID : UInt8)
    (newBuffer newBufferSize : UInt32) :
    SameQueue s (s.setReceiveBuffer taskID socketID newBuffer newBufferSize).2 := by
  unfold setReceiveBuffer
  split
  · dsimp only
    split
    · exact .refl s
    · split
      · exact .refl s
      · exact sameQueue_setDesc s _ _ _
  · exact .refl s

theorem sameQueue_deliver (s : SocketManager T) (mem : Mem) (t : Fin T) (i : SocketID) (packet : IPv4Packet)
    (fragments : List IPv4Packet) : SameQueue s (s.deliver mem t i packet fragments).1 := by
  unfold deliver
  dsimp only
  split
  · exact .refl s
  · split
    · exact .refl s
    · split
      · exact .refl s
      · exact sameQueue_setDesc s _ _ _

theorem sameQueue_received {s : SocketManager T} {mem : Mem} {behind : Nat → UDPPortState} {packet : IPv4Packet}
    {fragments : List IPv4Packet} {r : SocketManager T × Mem}
    (h : (s.handleReceivedPacket mem behind packet fragments).val = some r) : SameQueue s r.1 := by
  unfold handleReceivedPacket at h
  simp only [Traced.val_ite, Traced.val_pure, Traced.val_bind] at h
  split at h
  · cases h
    exact .refl s
  · split at h
    · cases h
      exact .refl s
    · split at h
      · cases h
        exact .refl s
      · split at h
        · cases h
        · cases h
          exact sameQueue_deliver s mem _ _ packet fragments

/-- What `updateTop`, `removeTop` and `indicateAsFinished` do to the manager: at
most a write to the descriptor of the socket bound to the port. -/
def OnlyBound (s : SocketManager T) (udpPort : UInt16) (s' : SocketManager T) : Prop :=
  s' = s ∨ ∃ t i d, s.boundSocket udpPort = some (some (t, i)) ∧ s' = s.setDesc t i d ∧
    d.isActive = (s.socketDescs t i).isActive ∧ d.udpPort = (s.socketDescs t i).udpPort

theorem OnlyBound.sameQueue {s s' : SocketManager T} {udpPort : UInt16} (h : OnlyBound s udpPort s') :
    SameQueue s s' := by
  rcases h with rfl | ⟨t, i, d, _, rfl, _⟩
  · exact .refl _
  · exact sameQueue_setDesc s t i d

theorem onlyBound_updateTop {s s' : SocketManager T} {udpPort : UInt16} {newFragmentOffset : UInt32}
    {newIdentification : UInt16} (h : s.updateTop udpPort newFragmentOffset newIdentification = some s') :
    OnlyBound s udpPort s' := by
  unfold updateTop at h
  obtain ⟨o, ho, rfl⟩ := Option.map_eq_some_iff.mp h
  cases o with
  | none => exact .inl rfl
  | some ti =>
    dsimp only
    split
    · exact .inl rfl
    · exact .inr ⟨ti.1, ti.2, _, ho, rfl, rfl, rfl⟩

theorem onlyBound_removeTop {s : SocketManager T} {mem : Mem} {udpPort : UInt16} {r : Bool × SocketManager T}
    (h : s.removeTop mem udpPort = some r) : OnlyBound s udpPort r.2 := by
  unfold removeTop at h
  obtain ⟨o, ho, rfl⟩ := Option.map_eq_some_iff.mp h
  cases o with
  | none => exact .inl rfl
  | some ti =>
    dsimp only
    split
    · exact .inl rfl
    · split
      · exact .inl rfl
      · exact .inr ⟨ti.1, ti.2, _, ho, rfl, rfl, rfl⟩

theorem onlyBound_indicateAsFinished {s : SocketManager T} {mem : Mem} {udpPort : UInt16} {r : SocketManager T × Mem}
    (h : s.indicateAsFinished mem udpPort = some r) : OnlyBound s udpPort r.1 := by
  unfold indicateAsFinished at h
  obtain ⟨o, ho, rfl⟩ := Option.map_eq_some_iff.mp h
  cases o with
  | none => exact .inl rfl
  | some ti => exact .inr ⟨ti.1, ti.2, _, ho, rfl, rfl, rfl⟩

/-- What a task sees of a finished request: the word at the indicator of the
socket bound to the port is set, and the socket has no send buffer any more. -/
theorem indicateAsFinished_cases {s m : SocketManager T} {mem mem' : Mem} {udpPort : UInt16}
    (h : s.indicateAsFinished mem udpPort = some (m, mem')) :
    (s.boundSocket udpPort = some none ∧ m = s ∧ mem' = mem) ∨
    ∃ t i d, s.boundSocket udpPort = some (some (t, i)) ∧ m = s.setDesc t i d ∧
      d.sendBufferIndicatorWhenFinished = 0 ∧
      (mem' = if (s.socketDescs t i).sendBufferIndicatorWhenFinished ≠ 0 then
          writeBytes mem (s.socketDescs t i).sendBufferIndicatorWhenFinished (fun k => if k = 0 then 1 else 0) 4
        else mem) ∧ d.sendBufferSize = 0 := by
  unfold indicateAsFinished at h
  obtain ⟨o, ho, h⟩ := Option.map_eq_some_iff.mp h
  cases o with
  | none =>
    cases h
    exact .inl ⟨ho, rfl, rfl⟩
  | some ti =>
    cases h
    exact .inr ⟨ti.1, ti.2, _, ho, rfl, rfl, rfl, rfl⟩

/-- A new request for the port of the caller's socket, if the call succeeds
with a buffer. -/
theorem setSendBuffer_lists {s : SocketManager T} {xs ys : List ReqElem} (hl : Lists s xs ys) (taskID : Fin T)
    (socketID : UInt8) (newBuffer newBufferSize indicatorWhenFinished : UInt32) :
    (Lists (s.setSendBuffer taskID socketID newBuffer newBufferSize indicatorWhenFinished).2 xs ys ∧
      (s.setSendBuffer taskID socketID newBuffer newBufferSize indicatorWhenFinished).2.request = s.request) ∨
    ∃ e ys' udpPort, ys = e :: ys' ∧ e ∉ xs ∧
      Lists (s.setSendBuffer taskID socketID newBuffer newBufferSize indicatorWhenFinished).2 (e :: xs) ys' ∧
      (s.setSendBuffer taskID socketID newBuffer newBufferSize indicatorWhenFinished).2.request =
        Function.update s.request e udpPort := by
  unfold setSendBuffer
  split
  · dsimp only
    split
    · exact .inl ⟨hl, rfl⟩
    · split
      · exact .inl ⟨hl, rfl⟩
      · split
        · exact .inl ⟨(sameQueue_setDesc s _ _ _).lists hl, rfl⟩
        · cases hr : s.addRequest _ with
          | none => exact .inl ⟨hl, rfl⟩
          | some s' =>
            obtain ⟨e, ys', hys, he, hl', hreq, _⟩ := addRequest_lists hl hr
            exact .inr ⟨e, ys', _, hys, he, (sameQueue_setDesc s' _ _ _).lists hl', hreq⟩
  · exact .inl ⟨hl, rfl⟩

theorem setSendBuffer_queue {s : SocketManager T} {xs : List ReqElem} (hq : Queue s xs) (taskID : Fin T)
    (socketID : UInt8) (newBuffer newBufferSize indicatorWhenFinished : UInt32) :
    ∃ xs', Queue (s.setSendBuffer taskID socketID newBuffer newBufferSize indicatorWhenFinished).2 xs' ∧
      ∀ e ∈ xs, e ∈ xs' ∧
        (s.setSendBuffer taskID socketID newBuffer newBufferSize indicatorWhenFinished).2.request e = s.request e := by
  obtain ⟨ys, hl⟩ := hq.lists
  rcases setSendBuffer_lists hl taskID socketID newBuffer newBufferSize indicatorWhenFinished with
    ⟨hl', hreq⟩ | ⟨e, ys', udpPort, _, he, hl', hreq⟩
  · exact ⟨xs, hl'.queue, fun x hx => ⟨hx, by rw [hreq]⟩⟩
  · refine ⟨e :: xs, hl'.queue, fun x hx => ⟨List.mem_cons_of_mem e hx, ?_⟩⟩
    rw [hreq, Function.update_of_ne (ne_of_mem_of_not_mem hx he)]

end SocketManager

/-! ## Runs -/

variable {T : Nat}

/-- The request elements are in the two lists, and the iterator is at a
request or at the end. -/
def Listed (s : Sockets T) : Prop := ∃ xs, Queue s.manager xs ∧ ∀ e, s.cursor = some e → e ∈ xs

theorem Listed.of_sameQueue {s s' : Sockets T} (h : Listed s) (hq : SameQueue s.manager s'.manager)
    (hc : s'.cursor = s.cursor) : Listed s' := by
  obtain ⟨xs, hxs, hcursor⟩ := h
  refine ⟨xs, hq.queue hxs, fun e he => hcursor e ?_⟩
  rw [← hc, he]

/-- Where the iterator is in the list. -/
theorem Listed.split {s : Sockets T} {e : ReqElem} (h : Listed s) (hc : s.cursor = some e) :
    ∃ as bs, Queue s.manager (as ++ e :: bs) := by
  obtain ⟨xs, hxs, hcursor⟩ := h
  obtain ⟨as, bs, rfl⟩ := List.append_of_mem (hcursor e hc)
  exact ⟨as, bs, hxs⟩

/-- Moving a request behind the others keeps the tables and loses no request. -/
theorem relocateToEnd_kept {s : Sockets T} (hl : Listed s) {r : SocketManager T × ReqPtr}
    (h : s.manager.relocateToEnd s.cursor = some r) : SameTables s.manager r.1 ∧ RequestsKept s.manager r.1 := by
  have hsame : SameTables s.manager s.manager ∧ RequestsKept s.manager s.manager :=
    ⟨⟨rfl, rfl⟩, requestsKept_of_sameQueue (.refl _)⟩
  cases hc : s.cursor with
  | none =>
    rw [hc] at h
    cases h
    exact hsame
  | some e =>
    rw [hc] at h
    obtain ⟨as, bs, hq⟩ := hl.split hc
    cases bs with
    | nil =>
      rw [relocateToEnd_last hq] at h
      cases h
      exact hsame
    | cons q bs =>
      obtain ⟨m, hm, hq', hreq, htables⟩ := relocateToEnd_queue hq
      rw [hm] at h
      cases h
      refine ⟨htables, fun xs hxs => ?_⟩
      cases hxs.unique hq
      refine ⟨_, hq', fun x hx => ⟨?_, congrFun hreq x⟩⟩
      simp only [List.mem_append, List.mem_cons] at hx ⊢
      tauto

/-- The requests are `xs`, the unused elements `ys`, and the iterator is at a
request or at the end. -/
structure Walks (s : Sockets T) (xs ys : List ReqElem) : Prop where
  lists : Lists s.manager xs ys
  cursor : ∀ e, s.cursor = some e → e ∈ xs

theorem Listed.walks {s : Sockets T} (h : Listed s) : ∃ xs ys, Walks s xs ys := by
  obtain ⟨xs, hq, hcursor⟩ := h
  obtain ⟨ys, hl⟩ := hq.lists
  exact ⟨xs, ys, hl, hcursor⟩

section Walks
variable {s : Sockets T} {as bs xs ys : List ReqElem} {e : ReqElem}

theorem Walks.same (hw : Walks s xs ys) {t : Sockets T} (hq : SameQueue s.manager t.manager)
    (hc : t.cursor = s.cursor) : Walks t xs ys := by
  refine ⟨hq.lists hw.lists, fun e he => hw.cursor e ?_⟩
  rw [← hc, he]

theorem Walks.goToNext (hw : Walks s (as ++ e :: bs) ys) (hc : s.cursor = some e) :
    Walks { s with cursor := s.cursor.bind s.manager.next } (as ++ e :: bs) ys ∧
      s.cursor.bind s.manager.next = bs.head? := by
  have hnext : s.cursor.bind s.manager.next = bs.head? := by
    rw [hc]
    exact hw.lists.requests.next_eq
  refine ⟨⟨hw.lists, fun x hx => ?_⟩, hnext⟩
  exact List.mem_append_right _ (List.mem_cons_of_mem _ (List.mem_of_head? (hnext.symm.trans hx)))

/-- The current request is taken out, the iterator goes to its successor. -/
theorem Walks.remove (hw : Walks s (as ++ e :: bs) ys) (hc : s.cursor = some e) :
    ∃ t, s.call .remove = some t ∧ Walks t (as ++ bs) (e :: ys) ∧ t.cursor = bs.head? := by
  obtain ⟨hl, hcursor, _⟩ := remove_lists hw.lists
  refine ⟨_, rfl, ?_, ?_⟩
  · rw [hc]
    exact ⟨hl, fun x hx => List.mem_append_right _ (List.mem_of_head? (hcursor.symm.trans hx))⟩
  · rw [hc]
    exact hcursor

/-- The current request goes behind the others; the iterator goes to its
successor, or stays if there was none. -/
theorem Walks.relocateToEnd (hw : Walks s (as ++ e :: bs) ys) (hc : s.cursor = some e) :
    ∃ t, s.call .relocateToEnd = some t ∧ Walks t (as ++ bs ++ [e]) ys ∧
      t.cursor = some (bs.headD e) := by
  cases bs with
  | nil =>
    refine ⟨s, ?_, ?_, hc⟩
    · rw [Sockets.call, hc, relocateToEnd_last hw.lists.queue, Option.map_some, ← hc]
    · rw [List.append_nil]
      exact hw
  | cons q bs =>
    obtain ⟨m, hm, hl, _⟩ := relocateToEnd_lists hw.lists
    refine ⟨{ s with manager := m, cursor := some q }, ?_, ⟨hl, fun x hx => ?_⟩, rfl⟩
    · rw [Sockets.call, hc, hm, Option.map_some]
    · cases hx
      simp

end Walks

/-- No call loses an element or leads the iterator astray. -/
theorem call_walks {s t : Sockets T} {c : SocketCall T} {xs ys : List ReqElem} (hw : Walks s xs ys)
    (h : s.call c = some t) : ∃ xs' ys', Walks t xs' ys' ∧ (xs' ++ ys').Perm (xs ++ ys) := by
  have hsame {t : Sockets T} (hq : SameQueue s.manager t.manager) (hc : t.cursor = s.cursor) :
      ∃ xs' ys', Walks t xs' ys' ∧ (xs' ++ ys').Perm (xs ++ ys) := ⟨xs, ys, hw.same hq hc, .refl _⟩
  cases c with
  | openSocket taskID udpPort =>
    cases h
    exact hsame (sameQueue_openSocket ..) rfl
  | closeSocket taskID socketID =>
    obtain ⟨s', h1, rfl⟩ := Option.map_eq_some_iff.mp h
    exact hsame (sameQueue_closeSocket h1) rfl
  | closeAllSocketsForTask taskID =>
    obtain ⟨s', h1, rfl⟩ := Option.map_eq_some_iff.mp h
    exact hsame (sameQueue_closeLoop h1) rfl
  | setReceiveBuffer taskID socketID newBuffer newBufferSize =>
    cases h
    exact hsame (sameQueue_setReceiveBuffer ..) rfl
  | setSendBuffer taskID socketID newBuffer newBufferSize indicatorWhenFinished =>
    cases h
    rcases setSendBuffer_lists hw.lists taskID socketID newBuffer newBufferSize indicatorWhenFinished with
      ⟨hl, _⟩ | ⟨e, ys', _, rfl, _, hl, _⟩
    · exact ⟨xs, ys, ⟨hl, hw.cursor⟩, .refl _⟩
    · exact ⟨e :: xs, ys', ⟨hl, fun x hx => List.mem_cons_of_mem e (hw.cursor x hx)⟩, List.perm_middle.symm⟩
  | received behind packet fragments =>
    obtain ⟨r, h1, rfl⟩ := Option.map_eq_some_iff.mp h
    exact hsame (sameQueue_received h1) rfl
  | userWrite mem =>
    cases h
    exact hsame (.refl _) rfl
  | getTransmissionRequestsIterator =>
    cases h
    refine ⟨xs, ys, ⟨hw.lists, fun e he => ?_⟩, .refl _⟩
    exact List.mem_of_head? (hw.lists.requests.head_eq.symm.trans he)
  | goToNext =>
    cases h
    cases hc : s.cursor with
    | none => exact hsame (.refl _) (by simp [hc])
    | some e =>
      obtain ⟨as, bs, rfl⟩ := List.append_of_mem (hw.cursor e hc)
      rw [← hc]
      exact ⟨_, ys, (hw.goToNext hc).1, .refl _⟩
  | updateTop newFragmentOffset newIdentification =>
    obtain ⟨e, _, h⟩ := Option.bind_eq_some_iff.mp h
    obtain ⟨s', h1, rfl⟩ := Option.map_eq_some_iff.mp h
    exact hsame (onlyBound_updateTop h1).sameQueue rfl
  | removeTop =>
    obtain ⟨e, _, h⟩ := Option.bind_eq_some_iff.mp h
    obtain ⟨r, h1, rfl⟩ := Option.map_eq_some_iff.mp h
    exact hsame (onlyBound_removeTop h1).sameQueue rfl
  | indicateAsFinished =>
    obtain ⟨e, _, h⟩ := Option.bind_eq_some_iff.mp h
    obtain ⟨r, h1, rfl⟩ := Option.map_eq_some_iff.mp h
    exact hsame (onlyBound_indicateAsFinished h1).sameQueue rfl
  | remove =>
    cases hc : s.cursor with
    | none =>
      rw [Sockets.call, hc] at h
      cases h
      exact hsame (.refl _) hc.symm
    | some e =>
      obtain ⟨as, bs, rfl⟩ := List.append_of_mem (hw.cursor e hc)
      obtain ⟨t', h', hw', _⟩ := hw.remove hc
      rw [h', Option.some.injEq] at h
      subst h
      refine ⟨_, _, hw', ?_⟩
      rw [List.append_assoc, List.append_assoc, List.cons_append]
      exact (List.perm_middle).append_left as
  | relocateToEnd =>
    cases hc : s.cursor with
    | none =>
      rw [Sockets.call, hc] at h
      cases h
      exact hsame (.refl _) hc.symm
    | some e =>
      obtain ⟨as, bs, rfl⟩ := List.append_of_mem (hw.cursor e hc)
      obtain ⟨t', h', hw', _⟩ := hw.relocateToEnd hc
      rw [h', Option.some.injEq] at h
      subst h
      refine ⟨_, _, hw', ?_⟩
      simp only [List.append_assoc, List.cons_append, List.nil_append]
      exact (List.perm_middle).append_left as

theorem call_listed {s t : Sockets T} {c : SocketCall T} (hl : Listed s) (h : s.call c = some t) : Listed t := by
  obtain ⟨xs, ys, hw⟩ := hl.walks
  obtain ⟨xs', _, hw', _⟩ := call_walks hw h
  exact ⟨xs', hw'.lists.queue, hw'.cursor⟩

/-- A newly constructed manager, before the network task has an iterator. -/
def Started (s : Sockets T) : Prop := (socketLTS T).init s ∧ s.cursor = none

theorem listed_of_run {s t : Sockets T} {cs : List (SocketCall T)} (hs : Started s) (hr : (socketLTS T).Run s cs t) :
    Listed t := by
  refine hr.keeps (I := Listed) (fun s c t hl h => call_listed hl h) ?_
  obtain ⟨⟨old, he⟩, hc⟩ := hs
  refine ⟨[], he ▸ (lists_init old).queue, fun e he => ?_⟩
  rw [hc] at he
  cases he

/-- In every state of every run the elements are partitioned between the two
lists, and `remove` and `relocateToEnd` do to the first one what they say. -/
theorem transmission_list_integrity (s t : Sockets T) (cs : List (SocketCall T)) (hs : Started s)
    (hr : (socketLTS T).Run s cs t) :
    ∃ xs ys, Walks t xs ys ∧ (xs ++ ys).Perm (List.finRange MAX_NUM_TRANSMISSION_REQUESTS) ∧
      ∀ as e bs, xs = as ++ e :: bs → t.cursor = some e →
        (∃ u, t.call .remove = some u ∧ Walks u (as ++ bs) (e :: ys) ∧ u.cursor = bs.head?) ∧
        (∃ u, t.call .relocateToEnd = some u ∧ Walks u (as ++ bs ++ [e]) ys ∧ u.cursor = some (bs.headD e)) ∧
        ∃ u, t.call .goToNext = some u ∧ Walks u xs ys ∧ u.cursor = bs.head? := by
  have hinv : ∃ xs ys, Walks t xs ys ∧ (xs ++ ys).Perm (List.finRange MAX_NUM_TRANSMISSION_REQUESTS) := by
    refine hr.keeps (I := fun t => ∃ xs ys, Walks t xs ys ∧
      (xs ++ ys).Perm (List.finRange MAX_NUM_TRANSMISSION_REQUESTS)) (fun s c t hI h => ?_) ?_
    · obtain ⟨xs, ys, hw, hp⟩ := hI
      obtain ⟨xs', ys', hw', hp'⟩ := call_walks hw h
      exact ⟨xs', ys', hw', hp'.trans hp⟩
    · obtain ⟨⟨old, he⟩, hc⟩ := hs
      refine ⟨[], _, ⟨he ▸ lists_init old, fun e he => ?_⟩, .refl _⟩
      rw [hc] at he
      cases he
  obtain ⟨xs, ys, hw, hp⟩ := hinv
  refine ⟨xs, ys, hw, hp, fun as e bs hxs hc => ?_⟩
  subst hxs
  exact ⟨hw.remove hc, hw.relocateToEnd hc, _, rfl, hw.goToNext hc⟩

/-- One request, and the iterator at it. -/
theorem transmission_list_integrity_port80 : ∃ (s : Sockets 1) (e : ReqElem) (xs ys : List ReqElem),
    s.cursor = some e ∧ Walks s xs ys ∧ (xs ++ ys).Perm (List.finRange MAX_NUM_TRANSMISSION_REQUESTS) ∧
      ∃ u, s.call .remove = some u ∧ u.cursor = none := by
  let s₀ : Sockets 1 := ⟨SocketManager.init blankManager, fun _ => 0, none⟩
  let s₁ : Sockets 1 := { s₀ with manager := (s₀.manager.openSocket ⟨0, Nat.one_pos⟩ 80).2 }
  let s₂ : Sockets 1 := { s₁ with manager := (s₁.manager.setSendBuffer ⟨0, Nat.one_pos⟩ 0 0x2000 16 0).2 }
  let s₃ : Sockets 1 := { s₂ with cursor := s₂.manager.transmissionRequestsHead }
  have hrun : (socketLTS 1).Run s₀ [.openSocket ⟨0, Nat.one_pos⟩ 80, .setSendBuffer ⟨0, Nat.one_pos⟩ 0 0x2000 16 0,
      .getTransmissionRequestsIterator] s₃ :=
    .cons (t := s₁) rfl (.cons (t := s₂) rfl (.cons (t := s₃) rfl (.nil _)))
  have hcursor : s₃.cursor = some ⟨0, by decide⟩ := by decide +kernel
  have hnext : s₃.manager.next ⟨0, by decide⟩ = none := by decide +kernel
  obtain ⟨xs, ys, hw, hp, hops⟩ := transmission_list_integrity s₀ s₃ _ ⟨⟨blankManager, rfl⟩, rfl⟩ hrun
  obtain ⟨as, bs, hxs⟩ := List.append_of_mem (hw.cursor _ hcursor)
  obtain ⟨⟨u, hu, _, hlast⟩, _⟩ := hops as _ bs hxs hcursor
  refine ⟨s₃, _, xs, ys, hcursor, hw, hp, u, hu, ?_⟩
  have hrequests := hw.lists.requests
  rw [hxs] at hrequests
  rw [hlast, ← hrequests.next_eq, hnext]

/-! ## One round of the network task -/

/-- What the sending loop leaves behind: how far it got with the packet,
whether the interface has a write buffer left, and task memory, where it
writes the UDP headers. -/
structure SendOutcome where
  fragmentOffset : UInt32
  identification : UInt16
  writeBuffer : Bool
  mem : Mem

namespace Sockets

/-- The request is done: the task is told, and the request goes. -/
def finish (s : Sockets T) : Option (Sockets T) :=
  (s.call .indicateAsFinished).bind fun s => s.call .remove

/-- mirrors network_management_task.cpp:328-411 -/
def handleTransmissionRequest (s : Sockets T) (outcome : SendOutcome) : Option (Sockets T) :=
  s.cursor.bind fun e =>
  (s.manager.getTop s.mem (s.manager.request e)).bind fun outgoingUDPPacket =>
    let s := { s with mem := outcome.mem }
    if outgoingUDPPacket.dataLen = 0 then s.finish
    else if outcome.fragmentOffset ≥ outgoingUDPPacket.dataLen then
      (s.manager.removeTop s.mem (s.manager.request e)).bind fun (txRequestDone, manager) =>
        let s := { s with manager := manager }
        if txRequestDone then s.finish else s.call .relocateToEnd
    else
      let s := s.call (.updateTop outcome.fragmentOffset outcome.identification)
      if outcome.writeBuffer then s.bind fun s => s.call .goToNext else s

end Sockets

end CpuScheduler.L3
