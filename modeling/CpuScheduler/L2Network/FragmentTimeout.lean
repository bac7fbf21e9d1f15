import CpuScheduler.L2Network.ArpTable
import CpuScheduler.L2Network.Arrivals

/-!
# Fragments that come too late

The handler runs beside a clock that does not wrap (`now`, the ticks so far)
and a record of when the packet in each buffer arrived (`arrived`). The code
keeps one time per chain, the `createdTime` of its first fragment: it is the
time of the fragment of the chain that arrived first (`Since`), also after
another fragment was put in front of it. So a chain that is still alive when a
fragment is filed in it began at most `FRAGMENT_TIMEOUT` ticks ago.

Expiry is lazy: a chain stays in the incomplete list until a later fragment
passes it, and the timer wraps after 2^31 ticks. `RecentFragments` says that
when a frame comes in no fragment in the list is as old as that.
-/
namespace CpuScheduler.L2

open Links Word NetworkStackHandler

variable {n h l : Nat}

structure Clocked (n h l : Nat) where
  handler : NetworkStackHandler n h l
  now : Nat
  arrived : Fin n → Nat

/-- The buffer that the next accepted frame gets. -/
def takenElement (s : NetworkStackHandler n h l) : Ptr n :=
  match s.unusedPacketsHead with
  | some e => some e
  | none => s.incompleteFragmentedDatagramsHead

def arrivedAfter (s : Clocked n h l) : Call → Fin n → Nat
  | .incoming f =>
    if IsIPv4For f.data s.handler.myIP f.dataLen then
      match takenElement s.handler with
      | some e => Function.update s.arrived e s.now
      | none => s.arrived
    else s.arrived
  | _ => s.arrived

def clockedLTS (n h l : Nat) [NeZero n] [NeZero h] : LTS (Clocked n h l) Call where
  init s := (handlerLTS n h l).init s.handler ∧ s.now = 0
  step s c t := s.handler.call c = some t.handler ∧ t.now = s.now + tickCount [c] ∧ t.arrived = arrivedAfter s c

/-- When a frame comes in, every fragment that waits arrived less than 2^31
ticks ago. -/
def RecentFragments (s : Clocked n h l) : Call → Prop
  | .incoming _ => ∀ c ∈ incompleteChains s.handler, ∀ x ∈ c, s.now < s.arrived x + 2 ^ 31
  | _ => True

/-! ## The age of a chain -/

section Chain
variable {ι : Type} {arrived : ι → Nat} {m now : Nat} {c : List ι}

/-- The first of the fragments arrived at `m`, the others within the timeout. -/
structure Since (arrived : ι → Nat) (m : Nat) (c : List ι) : Prop where
  first : ∃ x ∈ c, arrived x = m
  within : ∀ x ∈ c, m ≤ arrived x ∧ arrived x ≤ m + FRAGMENT_TIMEOUT

theorem since_singleton (arrived : ι → Nat) (e : ι) : Since arrived (arrived e) [e] := by
  refine ⟨⟨e, by simp, rfl⟩, fun x hx => ?_⟩
  rw [List.mem_singleton.mp hx]
  omega

theorem Since.congr {arrived' : ι → Nat} (hs : Since arrived m c) (he : ∀ x ∈ c, arrived' x = arrived x) :
    Since arrived' m c := by
  obtain ⟨x, hx, hm⟩ := hs.first
  refine ⟨⟨x, hx, by rw [he x hx, hm]⟩, fun y hy => ?_⟩
  rw [he y hy]
  exact hs.within y hy

/-- A fragment that arrives in time. -/
theorem Since.placed {val : ι → IPv4Packet} {e : ι} (hs : Since arrived m c) (hle : m ≤ arrived e)
    (hyoung : arrived e ≤ m + FRAGMENT_TIMEOUT) : Since arrived m (placed val e c) := by
  obtain ⟨x, hx, hm⟩ := hs.first
  refine ⟨⟨x, mem_placed.mpr (.inr hx), hm⟩, fun y hy => ?_⟩
  rcases mem_placed.mp hy with rfl | hy
  · exact ⟨hle, hyoung⟩
  · exact hs.within y hy

end Chain

/-- An incomplete chain: the `createdTime` of its first fragment is the time
it began. -/
def BegunAt (val : Fin n → IPv4Packet) (arrived : Fin n → Nat) (now : Nat) (c : List (Fin n)) : Prop :=
  ∃ m, Since arrived m c ∧ m ≤ now ∧ ∀ x, c.head? = some x → (val x).createdTime = m % 2 ^ 31

structure Ages (a : Buffers (Fin n)) (arrived : Fin n → Nat) (now : Nat) : Prop where
  incomplete : ∀ c ∈ a.incomplete, BegunAt a.val arrived now c
  ready : ∀ c ∈ a.ready, ∃ m, Since arrived m c

/-- The timeout test measures the age of the chain. -/
theorem timedOut_iff {s : NetworkStackHandler n h l} {now m : Nat} {p : IPv4Packet}
    (ht : s.timerCounter = (now % 2 ^ 31 : Nat)) (hp : p.createdTime = m % 2 ^ 31) (hm : m ≤ now)
    (hrecent : now < m + 2 ^ 31) : s.timedOut p = true ↔ m + FRAGMENT_TIMEOUT < now := by
  unfold timedOut
  rw [decide_eq_true_iff, hp, asInt_of_lt (by omega) (by omega), passedTimeSince_eq ht hm, Nat.mod_eq_of_lt (by omega)]
  omega

/-- A chain is alive if and only if its first fragment is young enough. -/
theorem Since.expired_iff {s : NetworkStackHandler n h l} {val : Fin n → IPv4Packet} {arrived : Fin n → Nat} {now m : Nat}
    {c : List (Fin n)} (ht : s.timerCounter = (now % 2 ^ 31 : Nat)) (hs : Since arrived m c) (hm : m ≤ now)
    (hc : ∀ x, c.head? = some x → (val x).createdTime = m % 2 ^ 31) (hrecent : ∀ x ∈ c, now < arrived x + 2 ^ 31) :
    headIs val s.timedOut c = true ↔ ∃ x ∈ c, arrived x + FRAGMENT_TIMEOUT < now := by
  obtain ⟨x, hx, hfirst⟩ := hs.first
  have hyoung := hrecent x hx
  rw [hfirst] at hyoung
  cases c with
  | nil => cases hx
  | cons y ys =>
    rw [headIs_cons, timedOut_iff ht (hc y rfl) hm hyoung]
    constructor
    · intro hold
      exact ⟨x, hx, by rw [hfirst]; exact hold⟩
    · intro hold
      obtain ⟨z, hz, hold⟩ := hold
      have hle := (hs.within z hz).1
      omega

/-! ## Filing a fragment -/

section Filed
variable {s : NetworkStackHandler n h l} {a b a1 : Buffers (Fin n)} {arrived : Fin n → Nat} {now : Nat} {e : Fin n}

theorem BegunAt.congr {val val' : Fin n → IPv4Packet} {arrived' : Fin n → Nat} {c : List (Fin n)}
    (hc : BegunAt val arrived now c) (hv : ∀ x ∈ c, (val' x).createdTime = (val x).createdTime)
    (ha : ∀ x ∈ c, arrived' x = arrived x) : BegunAt val' arrived' now c := by
  obtain ⟨m, hs, hm, hhead⟩ := hc
  refine ⟨m, hs.congr ha, hm, fun x hx => ?_⟩
  rw [hv x (List.mem_of_head? hx)]
  exact hhead x hx

theorem mem_all_of_chain {c : List (Fin n)} {x : Fin n} (hc : c ∈ a.incomplete ∨ c ∈ a.ready) (hx : x ∈ c) : x ∈ a.all := by
  rcases hc with hc | hc
  · exact List.mem_append_left _ (List.mem_append_right _ (List.mem_flatten.mpr ⟨c, hc, hx⟩))
  · exact List.mem_append_right _ (List.mem_flatten.mpr ⟨c, hc, hx⟩)

/-- The taken buffer is in no chain, so what it holds does not matter. -/
theorem Ages.taken (hages : Ages a arrived now) (ht : Buffers.Taken a e a1) (p : IPv4Packet) :
    Ages (a1.fill e p) (Function.update arrived e now) now := by
  have hne {c : List (Fin n)} (hc : c ∈ a1.incomplete ∨ c ∈ a1.ready) {x : Fin n} (hx : x ∈ c) : x ≠ e := by
    rintro rfl
    exact ht.fresh (mem_all_of_chain hc hx)
  constructor
  · intro c hc
    refine (hages.incomplete c (ht.incomplete_subset hc)).congr (fun x hx => ?_) fun x hx => Function.update_of_ne (hne (.inl hc) hx) _ _
    rw [Buffers.fill_val_of_ne a1 p (hne (.inl hc) hx), ht.val]
  · intro c hc
    have hca : c ∈ a.ready := by
      rw [← ht.ready]
      exact hc
    obtain ⟨m, hs⟩ := hages.ready c hca
    exact ⟨m, hs.congr fun x hx => Function.update_of_ne (hne (.inr hc) hx) _ _⟩

/-- The chain in which a fragment is filed now. -/
theorem BegunAt.placed {c : List (Fin n)} (ht : s.timerCounter = (now % 2 ^ 31 : Nat)) (hc : BegunAt a.val arrived now c)
    (hrecent : ∀ x ∈ c, now < arrived x + 2 ^ 31) (hlive : headIs a.val s.timedOut c = false) (he : arrived e = now)
    (hec : e ∉ c) : BegunAt (inherit a.val e c) arrived now (placed a.val e c) := by
  obtain ⟨m, hs, hm, hhead⟩ := hc
  have hyoung : now ≤ m + FRAGMENT_TIMEOUT := by
    by_contra hold
    obtain ⟨x, hx, hfirst⟩ := hs.first
    have hexpired := (hs.expired_iff ht hm hhead hrecent).mpr ⟨x, hx, by omega⟩
    rw [hlive] at hexpired
    cases hexpired
  refine ⟨m, hs.placed (by omega) (by omega), hm, fun y hy => ?_⟩
  obtain ⟨x, hx, -⟩ := hs.first
  obtain ⟨z, hz⟩ := List.exists_cons_of_ne_nil (List.ne_nil_of_mem hx)
  obtain ⟨zs, rfl⟩ := hz
  obtain ⟨y', hy', htime⟩ := createdTime_head_placed a.val (e := e) (x := z) rfl hec
  rw [hy] at hy'
  cases hy'
  rw [htime]
  exact hhead z rfl

theorem Ages.filed (hF : Buffers.Filed s.timedOut a e b) (hages : Ages a arrived now)
    (ht : s.timerCounter = (now % 2 ^ 31 : Nat)) (hrecent : ∀ c ∈ a.incomplete, ∀ x ∈ c, now < arrived x + 2 ^ 31)
    (he : arrived e = now) (hcreated : (a.val e).createdTime = now % 2 ^ 31) (hfresh : e ∉ a.all) : Ages b arrived now := by
  have hne {c : List (Fin n)} (hc : c ∈ a.incomplete ∨ c ∈ a.ready) {x : Fin n} (hx : x ∈ c) : x ≠ e := by
    rintro rfl
    exact hfresh (mem_all_of_chain hc hx)
  -- chains without the fragment keep their times
  have hother {c d : List (Fin n)} (hd : d ∈ a.incomplete) : BegunAt (inherit a.val e c) arrived now d :=
    (hages.incomplete d hd).congr (fun x hx => by rw [inherit_of_ne a.val c (hne (.inl hd) hx)]) fun _ _ => rfl
  cases hF with
  | @fresh u pre hS =>
    refine ⟨fun c hc => ?_, hages.ready⟩
    rcases List.mem_append.mp hc with hc | hc
    · exact hages.incomplete c (hS.sub.subset (by simpa using hc))
    · rw [List.mem_singleton.mp hc]
      refine ⟨now, he ▸ since_singleton arrived e, le_rfl, fun x hx => ?_⟩
      cases hx
      exact hcreated
  | @lost u pre c cs hS hx => exact ⟨fun d hd => hages.incomplete d (hS.sub.subset hd), hages.ready⟩
  | @grown u pre c cs hS hf hd =>
    have hc : c ∈ a.incomplete := hS.sub.subset (by simp)
    refine ⟨fun d hm => ?_, hages.ready⟩
    simp only [List.mem_append, List.mem_cons] at hm
    rcases hm with hm | rfl | hm
    · exact hother (hS.sub.subset (by simp [hm]))
    · exact (hages.incomplete c hc).placed ht (hrecent c hc) (hS.found c cs rfl).2 he fun hec => hne (.inl hc) hec rfl
    · exact hother (hS.sub.subset (by simp [hm]))
  | @done u pre c cs hS hf hd =>
    have hc : c ∈ a.incomplete := hS.sub.subset (by simp)
    refine ⟨fun d hm => hother (hS.sub.subset ?_), fun d hm => ?_⟩
    · simp only [List.mem_append, List.mem_cons] at hm ⊢
      tauto
    · rcases List.mem_append.mp hm with hm | hm
      · exact hages.ready d hm
      · rw [List.mem_singleton.mp hm]
        obtain ⟨m, hs, -⟩ := (hages.incomplete c hc).placed ht (hrecent c hc) (hS.found c cs rfl).2 he
          fun hec => hne (.inl hc) hec rfl
        exact ⟨m, hs⟩

theorem takenElement_eq (hr : Rep s a) (ht : Buffers.Taken a e a1) : takenElement s = some e := by
  unfold takenElement
  rw [hr.lists.unused.head_eq]
  rcases ht.lists with ⟨hu, -⟩ | ⟨hu, hi⟩
  · rw [hu]
    rfl
  · have hhead := hr.lists.incomplete.heads.head_eq
    rw [hu, hhead, hi]
    rfl

theorem takenElement_none (hr : Rep s a) (hu : a.unused = []) (hi : a.incomplete = []) : takenElement s = none := by
  have hhead := hr.lists.incomplete.heads.head_eq
  unfold takenElement
  rw [hr.lists.unused.head_eq, hu, hhead, hi]
  rfl

/-- An accepted frame. -/
theorem Ages.accept (hr : Rep s a) (hages : Ages a arrived now) (ht : s.timerCounter = (now % 2 ^ 31 : Nat))
    (hrecent : ∀ c ∈ a.incomplete, ∀ x ∈ c, now < arrived x + 2 ^ 31) (data : Nat → UInt8) :
    Ages (a.accept s.timedOut (packetOf data s.timerCounter)) (match takenElement s with
      | some e => Function.update arrived e now
      | none => arrived) now := by
  have hA := Buffers.accept_accepted s.timedOut hr.wf (packetOf data s.timerCounter)
  generalize a.accept s.timedOut (packetOf data s.timerCounter) = b at hA
  cases hA with
  | dropped hu hi =>
    rw [takenElement_none hr hu hi]
    exact hages
  | @whole e a1 hta hfr =>
    rw [takenElement_eq hr hta]
    have hages1 := hages.taken hta (packetOf data s.timerCounter (a.val e))
    refine ⟨hages1.incomplete, fun c hc => ?_⟩
    rcases List.mem_append.mp hc with hc | hc
    · rw [← hta.ready] at hc
      exact hages1.ready c hc
    · rw [List.mem_singleton.mp hc]
      exact ⟨_, since_singleton _ e⟩
  | @fragment e a1 b hta hfr hF =>
    rw [takenElement_eq hr hta]
    refine (hages.taken hta (packetOf data s.timerCounter (a.val e))).filed hF ht ?_ (Function.update_self _ _ _) ?_ hta.fresh
    · intro c hc x hx
      dsimp only
      rw [Function.update_of_ne]
      · exact hrecent c (hta.incomplete_subset hc) x hx
      · rintro rfl
        exact hta.fresh (mem_all_of_chain (.inl hc) hx)
    · rw [Buffers.fill_val_self]
      show asUInt s.timerCounter = _
      rw [ht, asUInt_of_lt (by omega) (by omega)]
      omega

end Filed

/-! ## Runs -/

structure ClockedInv (s : Clocked n h l) : Prop where
  timer : s.handler.timerCounter = (s.now % 2 ^ 31 : Nat)
  ages : ∃ a, Rep s.handler a ∧ Ages a s.arrived s.now

theorem Ages.later {a : Buffers (Fin n)} {arrived : Fin n → Nat} {now now' : Nat} (hages : Ages a arrived now)
    (hle : now ≤ now') : Ages a arrived now' := by
  refine ⟨fun c hc => ?_, hages.ready⟩
  obtain ⟨m, hs, hm, hhead⟩ := hages.incomplete c hc
  exact ⟨m, hs, hm.trans hle, hhead⟩

theorem Ages.pop {a : Buffers (Fin n)} {arrived : Fin n → Nat} {now : Nat} (hages : Ages a arrived now) :
    Ages a.pop arrived now := by
  unfold Buffers.pop
  split
  · exact hages
  · rename_i c cs hready
    exact ⟨hages.incomplete, fun d hd => hages.ready d (by rw [hready]; exact List.mem_cons_of_mem c hd)⟩

theorem clockedInv_step [NeZero n] [NeZero h] {s t : Clocked n h l} {c : Call} (hs : ClockedInv s)
    (hrecent : RecentFragments s c) (hstep : (clockedLTS n h l).step s c t) : ClockedInv t := by
  obtain ⟨hcall, hnow, harrived⟩ := hstep
  obtain ⟨a, hr, hages⟩ := hs.ages
  obtain ⟨t', h1, h2⟩ := call_refines hr c
  rw [hcall, Option.some.injEq] at h1
  subst h1
  refine ⟨by rw [hnow]; exact timer_call hr hcall hs.timer, _, h2, ?_⟩
  rw [harrived, hnow]
  cases c with
  | incoming f =>
    simp only [Buffers.after, arrivedAfter]
    by_cases hf : IsIPv4For f.data s.handler.myIP f.dataLen
    · rw [if_pos hf, if_pos hf]
      have hrecent' : ∀ c ∈ incompleteChains s.handler, ∀ x ∈ c, s.now < s.arrived x + 2 ^ 31 := hrecent
      rw [hr.lists_eq.2.1] at hrecent'
      exact hages.accept hr hs.timer hrecent' f.data
    · rw [if_neg hf, if_neg hf]
      exact hages
  | pop => exact hages.pop
  | outgoing => exact hages
  | tick => exact hages.later (by simp [tickCount])

theorem clockedInv_reachable [NeZero n] [NeZero h] {s : Clocked n h l}
    (hs : ((clockedLTS n h l).Guarded RecentFragments).Reachable s) : ClockedInv s := by
  refine LTS.Inductive.reachable ⟨?_, ?_⟩ s hs
  · intro s hinit
    obtain ⟨⟨mem, myMac, myIP, gatewayIP, networkMask, hhandler⟩, hnow⟩ := hinit
    have hr := rep_init mem myMac myIP gatewayIP networkMask
    rw [← hhandler] at hr
    refine ⟨?_, _, hr, nofun, nofun⟩
    rw [hhandler, hnow]
    rfl
  · intro s c t hinv hstep
    exact clockedInv_step hinv hstep.1 hstep.2

/-! ## What a fragment frees -/

/-- The search stops at a chain of the same datagram that has not expired; the
expired chains in front of it are freed. -/
theorem scan_split {ι : Type} (expired same : List ι → Bool) (u : List ι) (pre cs : List (List ι)) :
    ∃ front, cs = front ++ (scan expired same u pre cs).2.2 ∧
      (∀ c ∈ front, expired c = true → ∀ x ∈ c, x ∈ (scan expired same u pre cs).1) ∧
      ∀ c ∈ front, expired c = false → same c = false := by
  induction cs generalizing u pre with
  | nil => exact ⟨[], rfl, nofun, nofun⟩
  | cons c cs ih =>
    unfold scan
    split
    · rename_i hexpired
      obtain ⟨front, hcs, hfreed, hother⟩ := ih (c ++ u) pre
      refine ⟨c :: front, by rw [List.cons_append, ← hcs], ?_, ?_⟩
      · intro d hd hexp x hx
        rcases List.mem_cons.mp hd with rfl | hd
        · exact (scan_mono expired same (d ++ u) pre cs).1 (List.mem_append_left _ hx)
        · exact hfreed d hd hexp x hx
      · intro d hd hexp
        rcases List.mem_cons.mp hd with rfl | hd
        · rw [hexpired] at hexp
          cases hexp
        · exact hother d hd hexp
    · rename_i hexpired
      split
      · exact ⟨[], rfl, nofun, nofun⟩
      · rename_i hsame
        obtain ⟨front, hcs, hfreed, hother⟩ := ih u (pre ++ [c])
        refine ⟨c :: front, by rw [List.cons_append, ← hcs], ?_, ?_⟩
        · intro d hd hexp x hx
          rcases List.mem_cons.mp hd with rfl | hd
          · rw [hexp] at hexpired
            exact absurd rfl hexpired
          · exact hfreed d hd hexp x hx
        · intro d hd hexp
          rcases List.mem_cons.mp hd with rfl | hd
          · simpa using hsame
          · exact hother d hd hexp

theorem insertFragment_unused {ι : Type} [DecidableEq ι] (exp : IPv4Packet → Bool) (a : Buffers ι) (e : ι) :
    (a.insertFragment exp e).unused = (a.search exp e).1 := by
  unfold Buffers.insertFragment
  rcases a.search exp e with ⟨u, pre, rest⟩
  cases rest with
  | nil => rfl
  | cons c cs =>
    dsimp only
    split
    · split <;> rfl
    · rfl

/-- The same in the buffers: `front` are the chains passed, `rest` those from
the fragment's own chain on. -/
structure Buffers.Passing {ι : Type} [DecidableEq ι] (exp : IPv4Packet → Bool) (a : Buffers ι) (e : ι)
    (front rest : List (List ι)) : Prop where
  chains : a.incomplete = front ++ rest
  own : ∀ c ds, rest = c :: ds → (∀ x ∈ c, (a.val x).key = (a.val e).key) ∧ headIs a.val exp c = false
  freed : ∀ c ∈ front, headIs a.val exp c = true → ∀ x ∈ c, x ∈ (a.insertFragment exp e).unused
  other : ∀ c ∈ front, headIs a.val exp c = false → ∀ x ∈ c, (a.val x).key ≠ (a.val e).key
  alone : rest = [] → [e] ∈ (a.insertFragment exp e).incomplete

theorem Buffers.WF.passing {ι : Type} [DecidableEq ι] {a : Buffers ι} (hw : a.WF) (exp : IPv4Packet → Bool) (e : ι) :
    ∃ front rest, a.Passing exp e front rest := by
  obtain ⟨u, pre, rest, hsearch, hS⟩ := Buffers.search_spec exp e hw.parts
  obtain ⟨front, hchains, hfreed, hother⟩ :=
    scan_split (headIs a.val exp) (headIs a.val (sameDatagram (a.val e))) a.unused [] a.incomplete
  have hscan : scan (headIs a.val exp) (headIs a.val (sameDatagram (a.val e))) a.unused [] a.incomplete = (u, pre, rest) :=
    hsearch
  rw [hscan] at hchains hfreed
  refine ⟨front, rest, hchains, hS.found, ?_, ?_, ?_⟩
  · rw [insertFragment_unused, hsearch]
    exact hfreed
  · intro c hc hlive x hx hkey
    have hpart := hw.parts c (by rw [hchains]; exact List.mem_append_left _ hc)
    have hsame := (headIs_sameDatagram hpart (a.val e) hx).mpr hkey
    rw [hother c hc hlive] at hsame
    cases hsame
  · intro hnil
    unfold Buffers.insertFragment
    rw [hsearch, hnil]
    simp

/-- The chain began more than `FRAGMENT_TIMEOUT` ticks ago. -/
def Clocked.Expired (s : Clocked n h l) (c : List (Fin n)) : Prop :=
  ∃ x ∈ c, s.arrived x + FRAGMENT_TIMEOUT < s.now

/-- Source, destination and identification of a frame. -/
def frameKey (data : Nat → UInt8) : UInt32 × UInt32 × Nat := (ipSource data, ipDest data, ipIdentification data)

/-- The frame `f` was filed in buffer `e`, which leads to `t`. The chains are
`front ++ rest`; if `rest` is not empty, its first chain is the one of the
fragment. -/
structure PassedBy (s : Clocked n h l) (f : RxFrame) (e : Fin n) (t : NetworkStackHandler n h l)
    (front rest : List (List (Fin n))) : Prop where
  chains : survivingChains s.handler = front ++ rest
  own : ∀ c ds, rest = c :: ds → (∀ x ∈ c, (s.handler.value x).key = frameKey f.data) ∧ ¬ s.Expired c
  freed : ∀ c ∈ front, s.Expired c → ∀ x ∈ c, x ∈ unusedList t
  other : ∀ c ∈ front, ¬ s.Expired c → ∀ x ∈ c, (s.handler.value x).key ≠ frameKey f.data
  alone : ∀ c ∈ front ++ rest, s.Expired c → (∀ x ∈ c, (s.handler.value x).key = frameKey f.data) →
    rest = [] ∧ [e] ∈ incompleteChains t

/-- An accepted fragment is filed in the buffer that is taken for it. -/
theorem accept_fragment {exp : IPv4Packet → Bool} {a a1 : Buffers (Fin n)} {e : Fin n} (ht : Buffers.Taken a e a1)
    (mk : IPv4Packet → IPv4Packet) (hfr : (mk (a.val e)).isFragment = true) :
    a.accept exp mk = (a1.fill e (mk (a.val e))).insertFragment exp e := by
  unfold Buffers.accept
  rw [ht.eq]
  dsimp only
  rw [ht.val, Buffers.put, if_pos hfr]
  rfl

theorem passedBy [NeZero h] {s : Clocked n h l} {f : RxFrame} {e : Fin n} {t : NetworkStackHandler n h l}
    (hs : ClockedInv s) (hrecent : RecentFragments s (.incoming f)) (hf : IsIPv4For f.data s.handler.myIP f.dataLen)
    (hfr : ipMoreFragments f.data = true ∨ ipFragmentOffset f.data ≠ 0) (hcall : s.handler.call (.incoming f) = some t)
    (he : takenElement s.handler = some e) : ∃ front rest, PassedBy s f e t front rest := by
  obtain ⟨a, hr, hages⟩ := hs.ages
  obtain ⟨t', h1, h2⟩ := call_refines hr (.incoming f)
  rw [hcall, Option.some.injEq] at h1
  subst h1
  rcases Buffers.take_cases hr.wf with ⟨hu, hi, -⟩ | ⟨e', a1, ht⟩
  · rw [takenElement_none hr hu hi] at he
    cases he
  rw [takenElement_eq hr ht] at he
  cases he
  have hfragment : (packetOf f.data s.handler.timerCounter (a.val e)).isFragment = true := by
    rcases hfr with hfr | hfr <;> simp [IPv4Packet.isFragment, packetOf, hfr]
  rw [Buffers.after, if_pos hf, accept_fragment ht _ hfragment] at h2
  have hwf : (a1.fill e (packetOf f.data s.handler.timerCounter (a.val e))).WF := ht.wf.setVal ht.fresh _
  have hkey : ((a1.fill e (packetOf f.data s.handler.timerCounter (a.val e))).val e).key = frameKey f.data := by
    rw [Buffers.fill_val_self]
    rfl
  -- the buffer of the fragment is in no chain
  have hne {c : List (Fin n)} (hc : c ∈ a1.incomplete) {x : Fin n} (hx : x ∈ c) : x ≠ e := by
    rintro rfl
    exact ht.fresh (mem_all_of_chain (.inl hc) hx)
  have hval {c : List (Fin n)} (hc : c ∈ a1.incomplete) {x : Fin n} (hx : x ∈ c) :
      (a1.fill e (packetOf f.data s.handler.timerCounter (a.val e))).val x = s.handler.value x := by
    rw [Buffers.fill_val_of_ne a1 _ (hne hc hx), ht.val, hr.val]
  have hexpired (c : List (Fin n)) (hc : c ∈ a1.incomplete) :
      headIs (a1.fill e (packetOf f.data s.handler.timerCounter (a.val e))).val s.handler.timedOut c = true ↔ s.Expired c := by
    have hca := ht.incomplete_subset hc
    obtain ⟨m, hsince, hm, hhead⟩ := hages.incomplete c hca
    have hrecent' : ∀ c ∈ incompleteChains s.handler, ∀ x ∈ c, s.now < s.arrived x + 2 ^ 31 := hrecent
    rw [hr.lists_eq.2.1] at hrecent'
    refine hsince.expired_iff hs.timer hm (fun x hx => ?_) (hrecent' c hca)
    rw [hval hc (List.mem_of_head? hx), hr.val]
    exact hhead x hx
  obtain ⟨front, rest, hpass⟩ := hwf.passing s.handler.timedOut e
  have hchains : a1.incomplete = front ++ rest := hpass.chains
  have hfront {c : List (Fin n)} (hc : c ∈ front) : c ∈ a1.incomplete := by
    rw [hchains]
    exact List.mem_append_left _ hc
  have hown {c : List (Fin n)} {ds : List (List (Fin n))} (hrest : rest = c :: ds) : c ∈ a1.incomplete := by
    rw [hchains, hrest]
    simp
  refine ⟨front, rest, by rw [hr.surviving ht, hchains], ?_, ?_, ?_, ?_⟩
  · intro c ds hrest
    obtain ⟨hkeys, hlive⟩ := hpass.own c ds hrest
    refine ⟨fun x hx => ?_, fun hold => ?_⟩
    · rw [← hval (hown hrest) hx, hkeys x hx, hkey]
    · rw [(hexpired c (hown hrest)).mpr hold] at hlive
      cases hlive
  · intro c hc hold
    rw [h2.lists_eq.1]
    exact hpass.freed c hc ((hexpired c (hfront hc)).mpr hold)
  · intro c hc hyoung x hx
    rw [← hval (hfront hc) hx, ← hkey]
    refine hpass.other c hc ?_ x hx
    rw [← Bool.not_eq_true, hexpired c (hfront hc)]
    exact hyoung
  · intro c hc hold hkeys
    have hc1 : c ∈ a1.incomplete := by
      rw [hchains]
      exact hc
    obtain ⟨x, hx⟩ : ∃ x, x ∈ c := hold.imp fun _ hx => hx.1
    -- a live chain of the same datagram would be this one
    have hnil : rest = [] := by
      rcases hrest : rest with _ | ⟨d, ds⟩
      · rfl
      · obtain ⟨hdkeys, hlive⟩ := hpass.own d ds hrest
        obtain ⟨y, hy⟩ := List.exists_mem_of_ne_nil d (hwf.parts d (hown hrest)).ne_nil
        have hsame : c = d := hwf.eq_of_key hc1 (hown hrest) hx hy (by rw [hval hc1 hx, hkeys x hx, hdkeys y hy, hkey])
        rw [← hsame, (hexpired c hc1).mpr hold] at hlive
        cases hlive
    refine ⟨hnil, ?_⟩
    rw [h2.lists_eq.2.1]
    exact hpass.alone hnil

/-- In every run in which no fragment waits for 2^31 ticks: the fragments of a
datagram in the ready list arrived within `FRAGMENT_TIMEOUT` ticks of the one
that arrived first. A fragment that is filed frees every chain older than that
in front of its own chain; an expired chain with its source, destination and
identification is freed too, and the fragment then begins a chain of its
own. -/
theorem reassembly_timeout [NeZero n] [NeZero h] (s : Clocked n h l)
    (hs : ((clockedLTS n h l).Guarded RecentFragments).Reachable s) :
    (ReadyList s.handler (readyChains s.handler) ∧ ∀ c ∈ readyChains s.handler, ∃ x ∈ c, ∀ y ∈ c,
      s.arrived x ≤ s.arrived y ∧ s.arrived y ≤ s.arrived x + FRAGMENT_TIMEOUT) ∧
    ∀ (f : RxFrame) (t : Clocked n h l) (e : Fin n), RecentFragments s (.incoming f) →
      (clockedLTS n h l).step s (.incoming f) t → IsIPv4For f.data s.handler.myIP f.dataLen →
      ipMoreFragments f.data = true ∨ ipFragmentOffset f.data ≠ 0 → takenElement s.handler = some e →
      ∃ front rest, PassedBy s f e t.handler front rest := by
  have hinv := clockedInv_reachable hs
  constructor
  · obtain ⟨a, hr, hages⟩ := hinv.ages
    rw [hr.lists_eq.2.2]
    refine ⟨hr.ready, fun c hc => ?_⟩
    obtain ⟨m, hsince⟩ := hages.ready c hc
    obtain ⟨x, hx, hm⟩ := hsince.first
    refine ⟨x, hx, fun y hy => ?_⟩
    rw [hm]
    exact hsince.within y hy
  · intro f t e hrecent hstep hf hfr he
    exact passedBy hinv hrecent hf hfr hstep.1 he

/-- Two halves of a datagram, one tick apart. -/
theorem reassembly_timeout_twoBuffers :
    ∃ s : Clocked 2 1 1, readyChains s.handler = [[0, 1]] ∧ s.arrived 0 = 0 ∧ s.arrived 1 = 1 ∧
      ∃ x ∈ [(0 : Fin 2), 1], ∀ y ∈ [(0 : Fin 2), 1],
        s.arrived x ≤ s.arrived y ∧ s.arrived y ≤ s.arrived x + FRAGMENT_TIMEOUT := by
  have hfirst : (twoBuffers.calls [.incoming (smallFrame 0x20 0), .tick]).any (fun t => decide (takenElement t = some 1 ∧
      incompleteChains t = [[0]] ∧ t.myIP = 0x0A000001)) = true := by decide +kernel
  rw [Option.any_eq_true] at hfirst
  obtain ⟨t2, ht2, htaken⟩ := hfirst
  obtain ⟨htaken, hchains, hip⟩ := of_decide_eq_true htaken
  have hboth : (twoBuffers.calls [.incoming (smallFrame 0x20 0), .tick, .incoming (smallFrame 0 1)]).any
      (fun t => readyChains t == [[0, 1]]) = true := by decide +kernel
  rw [Option.any_eq_true] at hboth
  obtain ⟨t3, ht3, hready⟩ := hboth
  have hready : readyChains t3 = [[0, 1]] := by simpa using hready
  obtain ⟨t1, h1, h12⟩ := Option.bind_eq_some_iff.mp ht2
  obtain ⟨t2', h2, hnil⟩ := Option.bind_eq_some_iff.mp h12
  cases hnil
  have h3 : t2.call (.incoming (smallFrame 0 1)) = some t3 := by
    rw [calls, h1, Option.bind_some, calls, h2, Option.bind_some, calls] at ht3
    obtain ⟨t3', h3, hnil⟩ := Option.bind_eq_some_iff.mp ht3
    cases hnil
    exact h3
  have hf1 : IsIPv4For (smallFrame 0x20 0).data twoBuffers.myIP (smallFrame 0x20 0).dataLen := by decide
  have hf2 : IsIPv4For (smallFrame 0 1).data t2.myIP (smallFrame 0 1).dataLen := by
    rw [hip]
    decide
  have hempty : incompleteChains twoBuffers = [] := by decide
  have harrived1 : arrivedAfter ⟨twoBuffers, 0, fun _ => 0⟩ (.incoming (smallFrame 0x20 0)) =
      Function.update (fun _ => 0) 0 0 := by
    simp only [arrivedAfter]
    rw [if_pos hf1]
    rfl
  have harrived2 : arrivedAfter ⟨t2, 1, Function.update (fun _ => 0) 0 0⟩ (.incoming (smallFrame 0 1)) =
      Function.update (Function.update (fun _ => 0) 0 0) 1 1 := by
    simp only [arrivedAfter]
    rw [if_pos hf2, htaken]
  have hreach : ((clockedLTS 2 1 1).Guarded RecentFragments).Reachable
      ⟨t3, 1, Function.update (Function.update (fun _ => 0) 0 0) 1 1⟩ := by
    refine ⟨⟨twoBuffers, 0, fun _ => 0⟩, [.incoming (smallFrame 0x20 0), .tick, .incoming (smallFrame 0 1)],
      ⟨init_twoBuffers, rfl⟩, ?_⟩
    refine .cons (t := ⟨t1, 0, Function.update (fun _ => 0) 0 0⟩) ⟨?_, h1, rfl, harrived1.symm⟩ ?_
    · intro c hc
      rw [hempty] at hc
      cases hc
    refine .cons (t := ⟨t2, 1, Function.update (fun _ => 0) 0 0⟩) ⟨trivial, h2, rfl, rfl⟩ ?_
    refine .cons ⟨?_, h3, rfl, harrived2.symm⟩ (.nil _)
    intro c hc x hx
    show 1 < _ + 2 ^ 31
    omega
  have htimely := (reassembly_timeout _ hreach).1.2 [0, 1] (by rw [hready]; simp)
  exact ⟨_, hready, rfl, rfl, htimely⟩

end CpuScheduler.L2
