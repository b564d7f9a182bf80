import TinyCache.Proofs.NamespaceSelection
import TinyCache.Spec.Server

/-! Many RPCs at once. The gauge counts the handlers that have begun and have not ended, and
the work of an RPC is done once and in order, whoever is cancelled and whatever comes between. -/

namespace TinyCache.Server

variable {σ : Type} {proto : Protobuf} {store : σ → Event → Except PyError Reply × σ} {s₀ : σ}
  {server : Server σ} {id : ℕ} {task : RpcTask}

/-- A task together with what the pool has of it. -/
inductive Stage (proto : Protobuf) (store : σ → Event → Except PyError Reply × σ) :
    Pool.Job Work (Option Part) → Option (RpcTask × RpcPhase) → Prop
  | absent : Stage proto store .absent none
  | sending (task : RpcTask) : Stage proto store .absent (some (task, .sending))
  | queued (task : RpcTask) (hawaits : task.call.awaits task.metadata = true) :
      Stage proto store (.queued task.work) (some (task, .waiting))
  | taken (task : RpcTask) (hawaits : task.call.awaits task.metadata = true) (results : List (Option Part)) :
      Stage proto store (.taken task.work results) (some (task, .waiting))
  | answered (task : RpcTask) (hawaits : task.call.awaits task.metadata = true)
      (results : List (Option Part)) (hlen : results.length = task.work.length) :
      Stage proto store (.taken task.work results)
        (some (task, .answered (task.call.answer task.requestId (results.filterMap fun part => part))))
  | refused (task : RpcTask) (answer : Answer (Response ⊕ CacheStats))
      (hawaits : task.call.awaits task.metadata = false)
      (h : ∀ clock s, task.call.serve proto (CacheApplicationService.app store clock) task.metadata
        task.requestId s = (answer, s)) : Stage proto store .absent (some (task, .answered answer))
  | cancelled (task : RpcTask) : Stage proto store .absent (some (task, .cancelled))
  | withdrawn (task : RpcTask) : Stage proto store .withdrawn (some (task, .cancelled))
  | cancelledQueued (task : RpcTask) : Stage proto store (.queued task.work) (some (task, .cancelled))
  | abandoned (task : RpcTask) (results : List (Option Part)) :
      Stage proto store (.taken task.work results) (some (task, .cancelled))

theorem Stage.goes {job job' : Pool.Job Work (Option Part)} {x : Option (RpcTask × RpcPhase)}
    (h : Stage proto store job x) (hgoes : Pool.Goes job job') : Stage proto store job' x := by
  cases hgoes with
  | same => exact h
  | taken elements =>
    cases h with
    | queued task hawaits => exact .taken task hawaits []
    | cancelledQueued task => exact .abandoned task []
  | worked elements results o hlt =>
    cases h with
    | taken task hawaits => exact .taken task hawaits _
    | answered task _ _ hlen => omega
    | abandoned task => exact .abandoned task _

/-- A call that its handler does not hand on is turned away, whatever the store holds. -/
theorem refused_serve {τ υ : Type} {call : Call} {metadata : List (String × String)} (requestId : String)
    (h : call.awaits metadata = false) (app : CacheApp τ) (app' : CacheApp υ) (s : τ) (s' : υ) :
    call.serve proto app metadata requestId s = ((call.serve proto app' metadata requestId s').1, s) := by
  cases call with
  | stats => cases h
  | keyed call =>
    obtain ⟨x, hx⟩ : ∃ x, namespaceFromContext metadata = .error x := by
      unfold Call.awaits at h
      rcases hn : namespaceFromContext metadata with x | n
      · exact ⟨x, rfl⟩
      · rw [hn] at h
        cases h
    have hns : ∀ {ρ : Type}, GrpcCacheService.namespace_ (σ := ρ) ⟨metadata, requestId⟩ = .raise x.toExn := by
      intro ρ
      unfold GrpcCacheService.namespace_
      rw [hx]
      rfl
    cases call with
    | single rpc =>
      cases rpc <;>
        simp only [Call.serve, KeyCall.serve, Rpc.serve, GrpcCacheService.get, GrpcCacheService.set,
          GrpcCacheService.setIfAbsent, GrpcCacheService.compareAndSet, GrpcCacheService.delete, hns] <;>
        rfl
    | multiGet | multiSet | multiDelete =>
      simp only [Call.serve, KeyCall.serve, GrpcCacheService.multiGet, GrpcCacheService.multiSet,
        GrpcCacheService.multiDelete, hns]
      rfl

structure Staged (proto : Protobuf) (store : σ → Event → Except PyError Reply × σ) (server : Server σ) :
    Prop where
  stage : ∀ id, Stage proto store (server.pool.jobs id) (server.tasks id)
  later : ∀ id, server.arrivals ≤ id → server.tasks id = none

theorem Staged.start (s : σ) : Staged proto store (start s) := ⟨fun _ => .absent, fun _ _ => rfl⟩

/-- One task goes on, and of the jobs at most its own changes otherwise than by the threads. -/
theorem Staged.move (h : Staged proto store server) {id : ℕ} {x : RpcTask × RpcPhase} {server' : Server σ}
    (hid : id < server'.arrivals) (harrivals : server.arrivals ≤ server'.arrivals)
    (htasks : server'.tasks = Function.update server.tasks id (some x))
    (hjobs : ∀ a, a ≠ id → server'.pool.jobs a = server.pool.jobs a)
    (hstage : Stage proto store (server'.pool.jobs id) (some x)) : Staged proto store server' := by
  refine ⟨?_, ?_⟩
  · intro a
    rw [htasks]
    by_cases ha : a = id
    · subst ha
      rw [Function.update_self]
      exact hstage
    · rw [Function.update_of_ne ha, hjobs a ha]
      exact h.stage a
  · intro a ha
    rw [htasks, Function.update_of_ne (by omega)]
    exact h.later a (by omega)

theorem Staged.goes (h : Staged proto store server) {server' : Server σ} (htasks : server'.tasks = server.tasks)
    (harrivals : server'.arrivals = server.arrivals)
    (hjobs : ∀ id, Pool.Goes (server.pool.jobs id) (server'.pool.jobs id)) : Staged proto store server' := by
  refine ⟨?_, ?_⟩
  · intro id
    rw [htasks]
    exact (h.stage id).goes (hjobs id)
  · rw [htasks, harrivals]
    exact h.later

theorem Staged.lt (h : Staged proto store server) {id : ℕ} {x : RpcTask × RpcPhase}
    (hx : server.tasks id = some x) : id < server.arrivals := by
  by_contra hle
  rw [h.later id (not_lt.mp hle)] at hx
  cases hx

theorem step_staged (h : Staged proto store server) (turn : ServerTurn) :
    Staged proto store (server.step proto store turn) := by
  cases turn with
  | arrive task =>
    have hstage := h.stage server.arrivals
    rw [h.later server.arrivals le_rfl] at hstage
    refine h.move (Nat.lt_succ_self _) (Nat.le_succ _) rfl (fun _ _ => rfl) ?_
    generalize hjob : server.pool.jobs server.arrivals = job at hstage
    cases hstage
    exact hjob ▸ .sending task
  | enter id =>
    have hstage := h.stage id
    simp only [step, enter]
    split
    · rename_i task hid
      have hlt := h.lt hid
      rw [hid] at hstage
      generalize hjob : server.pool.jobs id = job at hstage
      cases hstage
      split_ifs with hawaits
      · have hsubmit := Pool.submit_jobs hjob task.work
        refine h.move hlt le_rfl rfl ?_ ?_
        · intro a ha
          exact (congrFun hsubmit a).trans (Function.update_of_ne ha _ _)
        · exact ((congrFun hsubmit id).trans (Function.update_self _ _ _)) ▸ .queued task hawaits
      · refine h.move hlt le_rfl rfl (fun _ _ => rfl) ?_
        have hawaits := Bool.eq_false_iff.mpr hawaits
        refine hjob ▸ .refused task _ hawaits ?_
        intro clock s
        exact refused_serve task.requestId hawaits _ _ s _
    · exact h
  | take id => exact h.goes rfl rfl fun a => Pool.take_goes server.pool id a
  | work id clock => exact h.goes rfl rfl fun a => Pool.work_goes server.pool id clock a
  | resume id =>
    have hstage := h.stage id
    simp only [step, resume]
    split
    · rename_i task parts hid hparts
      obtain ⟨elements, hjob, hlen⟩ := Pool.results?_eq_some hparts
      rw [hid, hjob] at hstage
      cases hstage with
      | taken _ hawaits => exact h.move (h.lt hid) le_rfl rfl (fun _ _ => rfl) (hjob ▸ .answered task hawaits parts hlen)
    · exact h
  | cancel id =>
    have hstage := h.stage id
    simp only [step, cancel]
    split
    · rename_i task hid
      rw [hid] at hstage
      generalize hjob : server.pool.jobs id = job at hstage
      cases hstage
      exact h.move (h.lt hid) le_rfl rfl (fun _ _ => rfl) (hjob ▸ .cancelled task)
    · rename_i task hid
      rw [hid] at hstage
      refine h.move (h.lt hid) le_rfl rfl (fun a ha => Pool.withdraw_jobs_of_ne _ ha) ?_
      rcases Pool.withdraw_jobs server.pool id with hsame | hwithdrawn
      · generalize hjob : server.pool.jobs id = job at hstage hsame
        cases hstage with
        | queued => exact hsame ▸ .cancelledQueued task
        | taken _ _ results => exact hsame ▸ .abandoned task results
      · exact hwithdrawn ▸ .withdrawn task
    · exact h
  | other action clock => exact h.goes rfl rfl fun a => .same _

theorem length_filter_update {α : Type} (p : α → Bool) (f : ℕ → α) (a : α) {id n : ℕ} (hid : id < n) :
    ((List.range n).filter fun x => p (Function.update f id a x)).length + (if p (f id) = true then 1 else 0) =
      ((List.range n).filter fun x => p (f x)).length + (if p a = true then 1 else 0) := by
  induction n with
  | zero => omega
  | succ n ih =>
    rw [List.range_succ, List.filter_append, List.filter_append, List.length_append, List.length_append]
    by_cases hn : id = n
    · subst hn
      have hsame : ((List.range id).filter fun x => p (Function.update f id a x)) =
          (List.range id).filter fun x => p (f x) := by
        apply List.filter_congr
        intro x hx
        rw [Function.update_of_ne (List.mem_range.mp hx).ne]
      rw [hsame]
      cases hf : p (f id) <;> cases ha : p a <;> simp [hf, ha]
    · have hlt := ih (by omega)
      have hlast : p (Function.update f id a n) = p (f n) := by rw [Function.update_of_ne (Ne.symm hn)]
      cases hf : p (f n) <;> simp [hlast, hf] <;> omega

def Gauged (server : Server σ) : Prop := server.active.value = server.inFlight.length

theorem Gauged.pos (h : Gauged server) (hs : Staged proto store server)
    (hid : server.tasks id = some (task, .waiting)) : 1 ≤ server.active.value := by
  have hmem : id ∈ server.inFlight :=
    List.mem_filter.mpr ⟨List.mem_range.mpr (hs.lt hid), by rw [hid]; rfl⟩
  have hlen := List.length_pos_of_mem hmem
  unfold Gauged at h
  omega

/-- A task goes on, and the gauge is changed by what that adds to or takes from the handlers. -/
theorem Gauged.move (h : Gauged server) {old new : RpcPhase} {server' : Server σ} (hlt : id < server.arrivals)
    (hid : server.tasks id = some (task, old))
    (htasks : server'.tasks = Function.update server.tasks id (some (task, new)))
    (harrivals : server'.arrivals = server.arrivals)
    (hvalue : server'.active.value + (if waits (some (task, old)) = true then 1 else 0) =
      server.active.value + (if waits (some (task, new)) = true then 1 else 0)) : Gauged server' := by
  have hlen := length_filter_update waits server.tasks (some (task, new)) hlt
  rw [hid] at hlen
  simp only [Gauged, inFlight, htasks, harrivals] at h ⊢
  split_ifs at hvalue hlen <;> omega

theorem Gauged.arrive (h : Gauged server) (task : RpcTask) : Gauged (server.arrive task) := by
  have hsame : ((List.range server.arrivals).filter fun x =>
      waits (Function.update server.tasks server.arrivals (some (task, RpcPhase.sending)) x)) =
        server.inFlight := by
    apply List.filter_congr
    intro x hx
    rw [Function.update_of_ne (List.mem_range.mp hx).ne]
  have hlist : (server.arrive task).inFlight = server.inFlight := by
    simp only [inFlight, Server.arrive, setPhase, List.range_succ, List.filter_append] at hsame ⊢
    rw [hsame]
    simp [waits]
  unfold Gauged at h ⊢
  rw [hlist]
  exact h

theorem step_gauged (h : Gauged server) (hs : Staged proto store server) (turn : ServerTurn) :
    Gauged (server.step proto store turn) := by
  cases turn with
  | arrive task => exact h.arrive task
  | enter id =>
    simp only [step, enter]
    split
    · rename_i task hid
      split_ifs
      · exact h.move (hs.lt hid) hid rfl rfl (by simp [waits, setPhase, ActiveRequests.increment])
      · refine h.move (hs.lt hid) hid rfl rfl ?_
        -- the handler ends in the turn that it begins in
        unfold Gauged at h
        simp only [waits, leave, setPhase, ActiveRequests.increment, ActiveRequests.decrement]
        simp
        omega
    · exact h
  | take | work | other => exact h
  | resume id =>
    simp only [step, resume]
    split
    · rename_i task parts hid hparts
      have hpos := h.pos hs hid
      refine h.move (hs.lt hid) hid rfl rfl ?_
      simp only [waits, leave, setPhase, ActiveRequests.decrement]
      simp
      omega
    · exact h
  | cancel id =>
    simp only [step, cancel]
    split
    · rename_i task hid
      exact h.move (hs.lt hid) hid rfl rfl rfl
    · rename_i task hid
      have hpos := h.pos hs hid
      refine h.move (hs.lt hid) hid rfl rfl ?_
      simp only [waits, leave, setPhase, ActiveRequests.decrement]
      simp
      omega
    · exact h

structure Inv (proto : Protobuf) (store : σ → Event → Except PyError Reply × σ) (s₀ : σ) (server : Server σ) :
    Prop where
  staged : Staged proto store server
  gauged : Gauged server
  sound : Pool.Sound (Work.run proto store) s₀ server.pool

theorem Inv.start (proto : Protobuf) (store : σ → Event → Except PyError Reply × σ) (s₀ : σ) :
    Inv proto store s₀ (start s₀) := ⟨.start s₀, rfl, .start s₀⟩

theorem step_sound (h : Pool.Sound (Work.run proto store) s₀ server.pool) (turn : ServerTurn) :
    Pool.Sound (Work.run proto store) s₀ (server.step proto store turn).pool := by
  cases turn with
  | arrive task => exact h
  | enter id =>
    simp only [step, enter]
    split
    · split_ifs
      · exact h.submit id _
      · exact h
    · exact h
  | take id => exact h.take id
  | work id clock => exact h.work id clock
  | resume id =>
    simp only [step, resume]
    split <;> exact h
  | cancel id =>
    simp only [step, cancel]
    split
    · exact h
    · exact h.withdraw id
    · exact h
  | other action clock => exact h.outside _ clock

theorem Inv.run (h : Inv proto store s₀ server) (turns : List ServerTurn) :
    Inv proto store s₀ (server.run proto store turns) := by
  induction turns generalizing server with
  | nil => exact h
  | cons turn turns ih =>
    exact ih ⟨step_staged h.staged turn, step_gauged h.gauged h.staged turn, step_sound h.sound turn⟩

/-- In every state of the server, whatever has been cancelled, the gauge counts the handlers that
wait for their threads; that it is kept from going below zero never matters. -/
theorem gauge_counts_handlers (proto : Protobuf) (store : σ → Event → Except PyError Reply × σ) (s₀ : σ)
    (turns : List ServerTurn) :
    ((start s₀).run proto store turns).active.value = ((start s₀).run proto store turns).inFlight.length :=
  ((Inv.start proto store s₀).run turns).gauged

theorem served_of_stage {log : List (Pool.Done Work (ℕ → Time) (Option Part))} {phase : RpcPhase}
    {job : Pool.Job Work (Option Part)} (hstage : Stage proto store job (some (task, phase)))
    (hprogress : Pool.Progress log id job) : Served proto store task (Pool.own log id) phase := by
  cases hstage with
  | sending =>
    cases hprogress with
    | absent h => exact h ▸ .sending
  | queued _ hawaits =>
    cases hprogress with
    | queued _ h => exact h ▸ .waiting [] hawaits (List.nil_prefix)
  | taken _ hawaits results =>
    cases hprogress with
    | taken _ _ _ hin _ => exact .waiting _ hawaits (hin ▸ List.take_prefix _ _)
  | answered _ hawaits results hlen =>
    cases hprogress with
    | taken _ _ _ hin hout =>
      rw [hlen, List.take_length] at hin
      rw [← hout, List.filterMap_map]
      exact .answered _ hawaits hin
  | refused _ answer hawaits h =>
    cases hprogress with
    | absent hown => exact hown ▸ .refused answer hawaits h
  | cancelled =>
    cases hprogress with
    | absent h => exact h ▸ .cancelled [] (List.nil_prefix)
  | withdrawn =>
    cases hprogress with
    | withdrawn h => exact h ▸ .cancelled [] (List.nil_prefix)
  | cancelledQueued =>
    cases hprogress with
    | queued _ h => exact h ▸ .cancelled [] (List.nil_prefix)
  | abandoned _ results =>
    cases hprogress with
    | taken _ _ _ hin _ => exact .cancelled _ (hin ▸ List.take_prefix _ _)

theorem step_log (server : Server σ) (turn : ServerTurn) :
    server.pool.log <+: (server.step proto store turn).pool.log := by
  cases turn with
  | arrive task => exact List.prefix_rfl
  | enter id =>
    simp only [step, enter]
    split
    · split_ifs
      · exact (Pool.submit_log _ _ _).symm ▸ List.prefix_rfl
      · exact List.prefix_rfl
    · exact List.prefix_rfl
  | take id => exact (Pool.take_log _ _).symm ▸ List.prefix_rfl
  | work id clock => exact Pool.work_log _ _ _
  | resume id =>
    simp only [step, resume]
    split <;> exact List.prefix_rfl
  | cancel id =>
    simp only [step, cancel]
    split
    · exact List.prefix_rfl
    · exact (Pool.withdraw_log _ _).symm ▸ List.prefix_rfl
    · exact List.prefix_rfl
  | other action clock => exact List.prefix_append _ _

theorem run_log (server : Server σ) (turns : List ServerTurn) :
    server.pool.log <+: (server.run proto store turns).pool.log := by
  induction turns generalizing server with
  | nil => exact List.prefix_rfl
  | cons turn turns ih => exact (step_log server turn).trans (ih _)

theorem step_answered (hs : Staged proto store server) {answer : Answer (Response ⊕ CacheStats)}
    (h : server.tasks id = some (task, .answered answer)) (turn : ServerTurn) :
    (server.step proto store turn).tasks id = some (task, .answered answer) := by
  have hother : ∀ {a : ℕ} {x : RpcTask × RpcPhase}, a ≠ id →
      Function.update server.tasks a (some x) id = some (task, .answered answer) := by
    intro a x ha
    rw [Function.update_of_ne (Ne.symm ha)]
    exact h
  have hne : ∀ {a : ℕ} {x : RpcTask × RpcPhase}, server.tasks a = some x → x.2 ≠ .answered answer → a ≠ id := by
    rintro a x ha hx rfl
    rw [h] at ha
    cases ha
    exact hx rfl
  cases turn with
  | arrive task' => exact hother (Ne.symm (hs.lt h).ne)
  | enter a =>
    simp only [step, enter]
    split
    · rename_i task' ha
      split_ifs <;> exact hother (hne ha (by simp))
    · exact h
  | take | work | other => exact h
  | resume a =>
    simp only [step, resume]
    split
    · rename_i task' parts ha hparts
      exact hother (hne ha (by simp))
    · exact h
  | cancel a =>
    simp only [step, cancel]
    split
    · rename_i task' ha
      exact hother (hne ha (by simp))
    · rename_i task' ha
      exact hother (hne ha (by simp))
    · exact h

theorem run_answered (h : Inv proto store s₀ server) {answer : Answer (Response ⊕ CacheStats)}
    (hid : server.tasks id = some (task, .answered answer)) (turns : List ServerTurn) :
    (server.run proto store turns).tasks id = some (task, .answered answer) := by
  induction turns generalizing server with
  | nil => exact hid
  | cons turn turns ih => exact ih (h.run [turn]) (step_answered h.staged hid turn)

theorem Inv.served (h : Inv proto store s₀ server) {phase : RpcPhase}
    (hid : server.tasks id = some (task, phase)) :
    Served proto store task (Pool.own server.pool.log id) phase :=
  served_of_stage (hid ▸ h.staged.stage id) (h.sound.progress id)

theorem Served.whole {done : List (Pool.Done Work (ℕ → Time) (Option Part))}
    {answer : Answer (Response ⊕ CacheStats)} (h : Served proto store task done (.answered answer)) :
    done.map Pool.Done.input = if task.call.awaits task.metadata then task.work else [] := by
  generalize hphase : RpcPhase.answered answer = phase at h
  cases h with
  | answered _ hawaits h => rw [if_pos hawaits, h]
  | refused _ hawaits _ => rw [if_neg (by simp [hawaits]), List.map_nil]
  | sending | waiting | cancelled => cases hphase

/-- Nothing is left to be done for an RPC that has been answered. -/
theorem own_of_answered (h : Inv proto store s₀ server) {answer : Answer (Response ⊕ CacheStats)}
    (hid : server.tasks id = some (task, .answered answer)) (turns : List ServerTurn)
    {more : List (Pool.Done Work (ℕ → Time) (Option Part))}
    (hmore : (server.run proto store turns).pool.log = server.pool.log ++ more) : Pool.own more id = [] := by
  have hbefore := Served.whole (h.served hid)
  have hafter := Served.whole ((h.run turns).served (run_answered h hid turns))
  rw [hmore, Pool.own_append, List.map_append, ← hbefore] at hafter
  exact List.map_eq_nil_iff.mp (List.append_cancel_left (hafter.trans (List.append_nil _).symm))

theorem rpcs_share_one_run (proto : Protobuf) (store : σ → Event → Except PyError Reply × σ) (s₀ : σ)
    (turns later : List ServerTurn) :
    OneRun proto store s₀ ((start s₀).run proto store turns) ((start s₀).run proto store (turns ++ later)) := by
  have h := (Inv.start proto store s₀).run turns
  refine ⟨h.sound.legal, h.sound.object, fun id task phase hid => h.served hid, ?_, ?_⟩
  · intro id hid
    have hstage := h.staged.stage id
    have hprogress := h.sound.progress id
    rw [hid] at hstage
    generalize hjob : ((start s₀).run proto store turns).pool.jobs id = job at hstage hprogress
    cases hstage
    cases hprogress with
    | absent hown => exact hown
  · have hrun : (start s₀).run proto store (turns ++ later) =
        ((start s₀).run proto store turns).run proto store later := List.foldl_append
    rw [hrun]
    obtain ⟨more, hmore⟩ := @run_log _ proto store ((start s₀).run proto store turns) later
    exact ⟨more, hmore.symm, fun id task answer hid =>
      ⟨run_answered h hid later, own_of_answered h hid later hmore.symm⟩⟩

/-- A batch is what its elements come to, one after another, each with its own readings. -/
theorem forEach_work {ι ρ : Type} {element : ι → Element} {result : ι → σ × List (ℕ → Time) → ρ × σ × List (ℕ → Time)}
    {part : ρ → Part} {read? : Part → Option ρ}
    (hrun : ∀ i s clock clocks, ∃ r t, result i (s, clock :: clocks) = (r, t, clocks) ∧
      (element i).run proto store task clock s = (part r, t))
    (hread : ∀ r, read? (part r) = some r) {is : List ι} {clocks : List (ℕ → Time)}
    (hlen : clocks.length = is.length) (s : σ) :
    GrpcCacheService.forEach result is (s, clocks) =
      (((Machine.outputs (Pool.serial (Work.run proto store)) s
          (((is.map element).map (Work.element task)).zip clocks)).filterMap fun part => part).filterMap read?,
        Machine.exec (Pool.serial (Work.run proto store)) s
          (((is.map element).map (Work.element task)).zip clocks), []) := by
  induction is generalizing s clocks with
  | nil =>
    rw [List.length_eq_zero_iff.mp hlen]
    rfl
  | cons i is ih =>
    obtain ⟨clock, clocks, rfl⟩ := List.exists_cons_of_length_eq_add_one hlen
    obtain ⟨r, t, hresult, hpart⟩ := hrun i s clock clocks
    have hstep : Pool.serial (Work.run proto store) s (.element task (element i), clock) = (some (part r), t) := by
      rw [Pool.serial, Work.run, hpart]
      rfl
    simp only [List.map_cons, List.zip_cons_cons, Machine.outputs, Machine.trace, Machine.exec, Machine.record,
      hstep, GrpcCacheService.forEach, hresult, ih (Nat.succ.inj hlen), List.filterMap_cons, hread]

section

variable (s : σ) (clock : ℕ → Time) (clocks : List (ℕ → Time)) {namespace_ : Option String}

theorem clockedApp_get (key : Key) :
    (CacheApplicationService.clockedApp store).get key namespace_ (s, clock :: clocks) =
      (((CacheApplicationService.app store clock).get key namespace_ s).1,
        ((CacheApplicationService.app store clock).get key namespace_ s).2, clocks) := rfl

theorem clockedApp_set (key : Key) (value : Bytes) (ttl : ℤ) :
    (CacheApplicationService.clockedApp store).set key value ttl namespace_ (s, clock :: clocks) =
      (((CacheApplicationService.app store clock).set key value ttl namespace_ s).1,
        ((CacheApplicationService.app store clock).set key value ttl namespace_ s).2, clocks) := rfl

theorem clockedApp_setIfAbsent (key : Key) (value : Bytes) (ttl : ℤ) :
    (CacheApplicationService.clockedApp store).setIfAbsent key value ttl namespace_ (s, clock :: clocks) =
      (((CacheApplicationService.app store clock).setIfAbsent key value ttl namespace_ s).1,
        ((CacheApplicationService.app store clock).setIfAbsent key value ttl namespace_ s).2, clocks) := rfl

theorem clockedApp_compareAndSet (key : Key) (expectedValue value : Bytes) (ttl : ℤ) :
    (CacheApplicationService.clockedApp store).compareAndSet key expectedValue value ttl namespace_
        (s, clock :: clocks) =
      (((CacheApplicationService.app store clock).compareAndSet key expectedValue value ttl namespace_ s).1,
        ((CacheApplicationService.app store clock).compareAndSet key expectedValue value ttl namespace_ s).2,
        clocks) := rfl

theorem clockedApp_delete (key : Key) :
    (CacheApplicationService.clockedApp store).delete key namespace_ (s, clock :: clocks) =
      (((CacheApplicationService.app store clock).delete key namespace_ s).1,
        ((CacheApplicationService.app store clock).delete key namespace_ s).2, clocks) := rfl

theorem clockedApp_stats :
    (CacheApplicationService.clockedApp store).stats (s, clock :: clocks) =
      (((CacheApplicationService.app store clock).stats s).1, ((CacheApplicationService.app store clock).stats s).2,
        clocks) := rfl

theorem multiGetItem_clocked (hns : (namespaceFromContext task.metadata).toOption.join = namespace_) (key : Key) :
    ∃ r t, GrpcCacheService.multiGetItem (CacheApplicationService.clockedApp store) task.requestId namespace_ key
        (s, clock :: clocks) = (r, t, clocks) ∧
      (Element.multiGet key).run proto store task clock s = (.lookup r, t) := by
  unfold Element.run
  simp only [hns, GrpcCacheService.multiGetItem, Act.handle, Act.bind_apply, clockedApp_get]
  rcases (CacheApplicationService.app store clock).get key namespace_ s with ⟨x | (_ | _ | _), t⟩ <;>
    exact ⟨_, _, rfl, rfl⟩

theorem multiSetItem_clocked (hns : (namespaceFromContext task.metadata).toOption.join = namespace_)
    (item : CacheItem) :
    ∃ r t, GrpcCacheService.multiSetItem (CacheApplicationService.clockedApp store) task.requestId namespace_ item
        (s, clock :: clocks) = (r, t, clocks) ∧
      (Element.multiSet item).run proto store task clock s = (.result r, t) := by
  unfold Element.run
  simp only [hns, GrpcCacheService.multiSetItem, Act.handle, Act.bind_apply, clockedApp_set]
  rcases (CacheApplicationService.app store clock).set item.key item.value item.ttl namespace_ s with
    ⟨x | status, t⟩
  · exact ⟨_, _, rfl, rfl⟩
  · cases status <;> exact ⟨_, _, rfl, rfl⟩

theorem multiDeleteItem_clocked (hns : (namespaceFromContext task.metadata).toOption.join = namespace_)
    (key : Key) :
    ∃ r t, GrpcCacheService.multiDeleteItem (CacheApplicationService.clockedApp store) task.requestId namespace_
        key (s, clock :: clocks) = (r, t, clocks) ∧
      (Element.multiDelete key).run proto store task clock s = (.result r, t) := by
  unfold Element.run
  simp only [hns, GrpcCacheService.multiDeleteItem, Act.handle, Act.bind_apply, clockedApp_delete]
  rcases (CacheApplicationService.app store clock).delete key namespace_ s with ⟨x | removed, t⟩ <;>
    exact ⟨_, _, rfl, rfl⟩

theorem rpc_clocked (rpc : Rpc) {context : RpcContext}
    (hns : namespaceFromContext context.metadata = .ok namespace_) :
    rpc.serve (CacheApplicationService.clockedApp store) context (s, clock :: clocks) =
      ((rpc.serve (CacheApplicationService.app store clock) context s).1,
        (rpc.serve (CacheApplicationService.app store clock) context s).2, clocks) := by
  cases rpc with
  | get key =>
    simp only [Rpc.serve, GrpcCacheService.get, GrpcCacheService.respond_namespace hns]
    simp only [GrpcCacheService.respond, Act.handle, Act.bind_apply, clockedApp_get]
    rcases (CacheApplicationService.app store clock).get key namespace_ s with ⟨x | (_ | _ | _), t⟩ <;> rfl
  | set request =>
    simp only [Rpc.serve, GrpcCacheService.set, GrpcCacheService.respond_namespace hns]
    simp only [GrpcCacheService.respond, Act.handle, Act.bind_apply, clockedApp_set]
    rcases (CacheApplicationService.app store clock).set request.key request.value request.ttl namespace_ s with
      ⟨x | status, t⟩
    · rfl
    · cases status <;> rfl
  | setIfAbsent request =>
    simp only [Rpc.serve, GrpcCacheService.setIfAbsent, GrpcCacheService.respond_namespace hns]
    simp only [GrpcCacheService.respond, Act.handle, Act.bind_apply, clockedApp_setIfAbsent]
    rcases (CacheApplicationService.app store clock).setIfAbsent request.key request.value request.ttl namespace_ s
      with ⟨x | status, t⟩ <;> rfl
  | compareAndSet request =>
    simp only [Rpc.serve, GrpcCacheService.compareAndSet, GrpcCacheService.respond_namespace hns]
    simp only [GrpcCacheService.respond, Act.handle, Act.bind_apply, clockedApp_compareAndSet]
    rcases (CacheApplicationService.app store clock).compareAndSet request.key request.expectedValue request.value
      request.ttl namespace_ s with ⟨x | status, t⟩ <;> rfl
  | delete key =>
    simp only [Rpc.serve, GrpcCacheService.delete, GrpcCacheService.respond_namespace hns]
    simp only [GrpcCacheService.respond, Act.handle, Act.bind_apply, clockedApp_delete]
    rcases (CacheApplicationService.app store clock).delete key namespace_ s with ⟨x | removed, t⟩ <;> rfl

theorem stats_clocked (context : RpcContext) :
    GrpcCacheService.stats proto (CacheApplicationService.clockedApp store) context (s, clock :: clocks) =
      ((GrpcCacheService.stats proto (CacheApplicationService.app store clock) context s).1,
        (GrpcCacheService.stats proto (CacheApplicationService.app store clock) context s).2, clocks) := by
  simp only [GrpcCacheService.stats, Act.handle, Act.bind_apply, clockedApp_stats]
  rcases (CacheApplicationService.app store clock).stats s with ⟨x | snapshot, t⟩
  · rfl
  · simp only [Act.check_apply]
    cases (cacheStatsResponse proto snapshot).mapError PyError.toExn <;> rfl

end

theorem serve_work (task : RpcTask) (hawaits : task.call.awaits task.metadata = true) (s : σ)
    {clocks : List (ℕ → Time)} (hlen : clocks.length = task.work.length) :
    task.call.serve proto (CacheApplicationService.clockedApp store) task.metadata task.requestId (s, clocks) =
      (task.call.answer task.requestId ((Machine.outputs (Pool.serial (Work.run proto store)) s
          (task.work.zip clocks)).filterMap fun part => part),
        Machine.exec (Pool.serial (Work.run proto store)) s (task.work.zip clocks), []) := by
  obtain ⟨call, metadata, requestId⟩ := task
  cases call with
  | stats =>
    obtain ⟨clock, rfl⟩ := List.length_eq_one_iff.mp hlen
    simp only [Call.serve, stats_clocked]
    rfl
  | keyed call =>
    obtain ⟨namespace_, hns⟩ : ∃ namespace_, namespaceFromContext metadata = .ok namespace_ := by
      unfold Call.awaits at hawaits
      rcases hn : namespaceFromContext metadata with x | namespace_
      · rw [hn] at hawaits
        cases hawaits
      · exact ⟨namespace_, rfl⟩
    have hjoin : (namespaceFromContext metadata).toOption.join = namespace_ := by rw [hns]; rfl
    have hcontext : namespaceFromContext (RpcContext.mk metadata requestId).metadata = .ok namespace_ := hns
    cases call with
    | single rpc =>
      obtain ⟨clock, rfl⟩ := List.length_eq_one_iff.mp hlen
      have hrpc := @rpc_clocked σ store s clock [] namespace_ rpc ⟨metadata, requestId⟩ hns
      simp only [Call.serve, KeyCall.serve, hrpc]
      rfl
    | multiGet keys =>
      have hitem := @multiGetItem_clocked σ proto store ⟨.keyed (.multiGet keys), metadata, requestId⟩
      have hloop := @forEach_work σ proto store ⟨.keyed (.multiGet keys), metadata, requestId⟩ Key CacheLookup
        .multiGet _ .lookup Part.lookup? (fun key s clock clocks => hitem s clock clocks hjoin key) (fun _ => rfl)
        keys clocks (by simpa [RpcTask.work, Call.work] using hlen) s
      simp only [Call.serve, KeyCall.serve, GrpcCacheService.multiGet, GrpcCacheService.buildMultiGetItems,
        GrpcCacheService.respond_batch hcontext, hloop]
      rfl
    | multiSet items =>
      have hitem := @multiSetItem_clocked σ proto store ⟨.keyed (.multiSet items), metadata, requestId⟩
      have hloop := @forEach_work σ proto store ⟨.keyed (.multiSet items), metadata, requestId⟩ CacheItem
        CacheOperationResult .multiSet _ .result Part.result?
        (fun item s clock clocks => hitem s clock clocks hjoin item) (fun _ => rfl)
        items clocks (by simpa [RpcTask.work, Call.work] using hlen) s
      simp only [Call.serve, KeyCall.serve, GrpcCacheService.multiSet, GrpcCacheService.buildMultiSetResults,
        GrpcCacheService.respond_batch hcontext, hloop]
      rfl
    | multiDelete keys =>
      have hitem := @multiDeleteItem_clocked σ proto store ⟨.keyed (.multiDelete keys), metadata, requestId⟩
      have hloop := @forEach_work σ proto store ⟨.keyed (.multiDelete keys), metadata, requestId⟩ Key
        CacheOperationResult .multiDelete _ .result Part.result?
        (fun key s clock clocks => hitem s clock clocks hjoin key) (fun _ => rfl)
        keys clocks (by simpa [RpcTask.work, Call.work] using hlen) s
      simp only [Call.serve, KeyCall.serve, GrpcCacheService.multiDelete, GrpcCacheService.buildMultiDeleteResults,
        GrpcCacheService.respond_batch hcontext, hloop]
      rfl

/-- An RPC is answered as if the server had nothing else to do, if no other thread comes between
its elements. -/
theorem undisturbed_rpc_served_alone (proto : Protobuf) (store : σ → Event → Except PyError Reply × σ) (s₀ : σ)
    (turns : List ServerTurn) {id : ℕ} {task : RpcTask} {answer : Answer (Response ⊕ CacheStats)}
    (hid : ((start s₀).run proto store turns).tasks id = some (task, .answered answer)) :
    ServedAlone proto store s₀ ((start s₀).run proto store turns).pool.log id task answer := by
  have h := (Inv.start proto store s₀).run turns
  have hserved := h.served hid
  have hlegal := h.sound.legal
  generalize ((start s₀).run proto store turns).pool.log = log at hserved hlegal
  refine ⟨?_, ?_⟩
  · intro pre post hlog
    generalize Pool.own log id = block at hserved hlog
    rw [hlog] at hlegal
    have hblock := Pool.legal_block hlegal
    generalize hphase : RpcPhase.answered answer = phase at hserved
    cases hserved with
    | answered _ hawaits hin =>
      cases hphase
      have hlen : (block.map Pool.Done.extra).length = task.work.length := by
        rw [← hin, List.length_map, List.length_map]
      have hcall : block.map Pool.Done.call = task.work.zip (block.map Pool.Done.extra) := by
        rw [← hin, List.zip_map']
        rfl
      have hanswer : block.filterMap Pool.Done.output =
          (block.map Pool.Done.output).filterMap fun part => part := by
        rw [List.filterMap_map]
        rfl
      rw [serve_work task hawaits _ hlen, hanswer, ← hblock, hcall, replay, replay, List.map_append,
        Machine.exec_append, hcall]
    | refused answer' hawaits hserve =>
      cases hphase
      rw [List.append_nil, refused_serve task.requestId hawaits _
        (CacheApplicationService.app store fun _ => 0) _ s₀, hserve]
      rfl
    | sending | waiting | cancelled => cases hphase
  · intro hsingle
    apply Pool.own_split
    have hwhole := congrArg List.length (Served.whole hserved)
    rw [List.length_map] at hwhole
    rw [hwhole]
    split_ifs
    · simpa [RpcTask.work] using hsingle
    · exact Nat.zero_le 1

/-- Time goes on while a batch is under way: what its first element finds has expired for its second. -/
def batchWhileTimeGoesOn : List ServerTurn :=
  [.arrive ⟨.keyed (.single (.set ⟨"a", [1], 1⟩)), [], "r0"⟩, .arrive ⟨.keyed (.multiGet ["a", "a"]), [], "r1"⟩,
    .enter 0, .enter 1, .take 0, .work 0 fun _ => 0, .take 1, .resume 0, .work 1 fun _ => 0, .work 1 fun _ => 5,
    .resume 1]

theorem undisturbed_rpc_served_alone_run :
    let server := (start (CacheStore.init (.small 0))).run .upb CacheStore.step batchWhileTimeGoesOn
    (Call.serve .upb (CacheApplicationService.clockedApp CacheStore.step) [] "r1" (.keyed (.multiGet ["a", "a"]))
        (replay .upb CacheStore.step (CacheStore.init (.small 0)) (server.pool.log.take 1),
          [fun _ => 0, fun _ => 5])).1.message.getLeft? =
      some (.lookups [{ key := "a", found := true, value := [1] }, { key := "a" }]) := by
  intro server
  have h := (@undisturbed_rpc_served_alone _ .upb CacheStore.step (CacheStore.init (.small 0)) batchWhileTimeGoesOn 1
    _ _ rfl).alone (server.pool.log.take 1) [] rfl
  rw [show (Pool.own server.pool.log 1).map Pool.Done.extra = [fun _ => 0, fun _ => 5] from rfl] at h
  rw [h]
  decide +kernel

end TinyCache.Server
