import TinyCache.Spec.Serve

/-! The life of the process, whatever fails and whoever interrupts it. -/

namespace TinyCache

variable {outside : Outside} {settings : Process.Settings} {effects : List Effect} {port : Effect}

/-- What is there before a port is asked for. -/
def prepared : List Effect := [.createStore, .serving "", .serving "cache.CacheService"]

/-- How far `serve` has come when it fails to start, or starts. -/
inductive Startup (outside : Outside) (settings : Process.Settings) :
    Except StartError Unit → List Effect → Prop
  | nothing (x : StartError) : Startup outside settings (.error x) []
  | noPort {x : StartError} (h : listenPort outside.readBytes (listenAddr settings) settings = .error x) :
      Startup outside settings (.error x) prepared
  | portRaised {port : Effect} {x : StartError}
      (hport : listenPort outside.readBytes (listenAddr settings) settings = .ok port)
      (h : outside.addPort port = .error x) : Startup outside settings (.error x) (prepared ++ [port])
  | notBound {port : Effect} (x : StartError)
      (hport : listenPort outside.readBytes (listenAddr settings) settings = .ok port)
      (h : outside.addPort port = .ok 0) : Startup outside settings (.error x) (prepared ++ [port, .stopStore])
  | notStarted {port : Effect} {n : ℤ} (x : StartError)
      (hport : listenPort outside.readBytes (listenAddr settings) settings = .ok port)
      (h : outside.addPort port = .ok n) (hn : n ≠ 0) : Startup outside settings (.error x) (prepared ++ [port])
  | noHealth {port : Effect} {n : ℤ} (x : StartError)
      (hport : listenPort outside.readBytes (listenAddr settings) settings = .ok port)
      (h : outside.addPort port = .ok n) (hn : n ≠ 0) :
      Startup outside settings (.error x) (prepared ++ [port, .startGrpc])
  | noSite {port : Effect} {n : ℤ} (x : StartError)
      (hport : listenPort outside.readBytes (listenAddr settings) settings = .ok port)
      (h : outside.addPort port = .ok n) (hn : n ≠ 0) :
      Startup outside settings (.error x)
        (prepared ++ [port, .startGrpc, .startHealth settings.healthHost settings.healthPort])
  | started {port : Effect} {n : ℤ}
      (hport : listenPort outside.readBytes (listenAddr settings) settings = .ok port)
      (h : outside.addPort port = .ok n) (hn : n ≠ 0) :
      Startup outside settings (.ok ())
        (prepared ++ [port, .startGrpc, .startHealth settings.healthHost settings.healthPort])

theorem check_bind {α : Type} (x : Except StartError α) (f : α → Act StartError (List Effect) Unit) :
    (Act.check x >>= f) effects = match x with
      | .ok a => f a effects
      | .error x => (.error x, effects) := by
  cases x <;> rfl

theorem emit_bind (effect : Effect) (f : Unit → Act StartError (List Effect) Unit) :
    (emit effect >>= f) effects = f () (effects ++ [effect]) := rfl

theorem addGrpcListenPort_bind (f : ℤ → Act StartError (List Effect) Unit) :
    (addGrpcListenPort outside (listenAddr settings) settings >>= f) effects =
      match listenPort outside.readBytes (listenAddr settings) settings with
      | .error x => (.error x, effects)
      | .ok port =>
        match outside.addPort port with
        | .error x => (.error x, effects ++ [port])
        | .ok n => f n (effects ++ [port]) := by
  unfold addGrpcListenPort
  rw [Act.bind_apply]
  cases listenPort outside.readBytes (listenAddr settings) settings with
  | error x => rfl
  | ok port =>
    dsimp only [Act.bind_apply, Act.check_apply, emit, Act.modify_apply]
    cases outside.addPort port <;> rfl

theorem health_bind (f : Unit → Act StartError (List Effect) Unit) :
    (addGrpcHealthService >>= f) effects = f () (effects ++ [.serving "", .serving "cache.CacheService"]) := by
  rw [← List.singleton_append, ← List.append_assoc]
  rfl

theorem startup_cases (outside : Outside) (settings : Process.Settings) :
    Startup outside settings (startup outside settings []).1 (startup outside settings []).2 := by
  unfold startup
  rw [check_bind]
  cases outside.loadProtobuf with
  | error x => exact .nothing x
  | ok =>
    dsimp only
    rw [check_bind]
    cases outside.createStore with
    | error x => exact .nothing x
    | ok =>
      dsimp only
      rw [emit_bind, health_bind, addGrpcListenPort_bind]
      cases hport : listenPort outside.readBytes (listenAddr settings) settings with
      | error x => exact .noPort hport
      | ok port =>
        dsimp only
        cases hbind : outside.addPort port with
        | error x => exact .portRaised hport hbind
        | ok n =>
          dsimp only
          split_ifs with hn
          · subst hn
            exact .notBound _ hport hbind
          · rw [check_bind]
            cases outside.startGrpc with
            | error x => exact .notStarted x hport hbind hn
            | ok =>
              dsimp only
              rw [emit_bind, check_bind]
              cases outside.setupHealth with
              | error x => exact .noHealth x hport hbind hn
              | ok =>
                dsimp only
                rw [emit_bind]
                cases outside.startHealth with
                | error x => exact .noSite x hport hbind hn
                | ok => exact .started hport hbind hn

theorem givenPath_eq_some {path : Option String} {p : String} (h : givenPath path = some p) : path = some p :=
  (Option.filter_eq_some_iff.mp h).1

theorem buildTlsServerCredentials_ok {readBytes : String → Except StartError Bytes} {certPath keyPath : String}
    {clientCaPath : Option String} {requireClientAuth : Bool} {credentials : ServerCredentials}
    (h : buildTlsServerCredentials readBytes certPath keyPath clientCaPath requireClientAuth = .ok credentials) :
    readBytes certPath = .ok credentials.certificateChain ∧ readBytes keyPath = .ok credentials.privateKey ∧
      credentials.requireClientAuth = requireClientAuth ∧
      (requireClientAuth = true → ∃ caPath root, clientCaPath = some caPath ∧ readBytes caPath = .ok root ∧
        credentials.rootCertificates = some root) := by
  unfold buildTlsServerCredentials at h
  cases hchain : readBytes certPath with
  | error x => simp [hchain, bind, Except.bind] at h
  | ok chain =>
    cases hkey : readBytes keyPath with
    | error x => simp [hchain, hkey, bind, Except.bind] at h
    | ok key =>
      simp only [hchain, hkey, bind, Except.bind] at h
      cases requireClientAuth with
      | false =>
        cases h
        exact ⟨rfl, rfl, rfl, by simp⟩
      | true =>
        cases clientCaPath with
        | none => cases h
        | some caPath =>
          cases hroot : readBytes caPath with
          | error x => simp [hroot] at h
          | ok root =>
            simp only [hroot, if_true] at h
            cases h
            exact ⟨rfl, rfl, rfl, fun _ => ⟨caPath, root, rfl, hroot, rfl⟩⟩

theorem listenPort_follows (h : listenPort outside.readBytes (listenAddr settings) settings = .ok port) :
    PortFollows outside.readBytes settings port := by
  unfold listenPort at h
  split_ifs at h with htls
  · split at h
    · rename_i certPath keyPath hcert hkey
      rcases hbuild : buildTlsServerCredentials outside.readBytes certPath keyPath settings.tlsClientCaPath
        settings.tlsRequireClientAuth with x | credentials
      · simp [hbuild, bind, Except.bind] at h
      · simp only [hbuild, bind, Except.bind] at h
        cases h
        obtain ⟨hchain, hprivate, hclients, hroot⟩ := buildTlsServerCredentials_ok hbuild
        exact .secure htls (givenPath_eq_some hcert) (givenPath_eq_some hkey) hchain hprivate hclients hroot
    · cases h
  · cases h
    exact .insecure (by simpa using htls)

theorem PortFollows.isPort {readBytes : String → Except StartError Bytes}
    (h : PortFollows readBytes settings port) : port.isPort = true := by
  cases h <;> rfl

theorem PortFollows.ne {readBytes : String → Except StartError Bytes} (h : PortFollows readBytes settings port) :
    port ≠ .startGrpc ∧ port ≠ .stopStore := by
  cases h <;> exact ⟨nofun, nofun⟩

namespace Serve

variable {started : List Effect} {self : Serve}

/-- How many of the effects a shutdown has had. -/
inductive Reached : Option ShutdownPhase → ℕ → Prop
  | none : Reached none 0
  | created : Reached (some .created) 0
  | drainingGrpc : Reached (some .drainingGrpc) 3
  | cleaningHealth : Reached (some .cleaningHealth) 4
  | finished : Reached (some .finished) 5
  | abandoned : Reached (some .abandoned) 0
  | abandonedDraining : Reached (some .abandoned) 3

def Going (started : List Effect) (effects : List Effect) (phase : Option ShutdownPhase) : Prop :=
  ∃ n, Reached phase n ∧ effects = started ++ shutdownEffects.take n

theorem Going.begin (h : Going started self.effects self.shutdown) :
    Going started self.beginShutdown.effects self.beginShutdown.shutdown := by
  obtain ⟨effects, main, phase⟩ := self
  obtain ⟨n, hn, heffects⟩ := h
  cases hn with
  | none => exact ⟨0, .created, heffects⟩
  | _ => exact ⟨_, by constructor, heffects⟩

theorem Going.continue (h : Going started self.effects self.shutdown) (raised : Bool) :
    Going started (self.continueShutdown raised).effects (self.continueShutdown raised).shutdown := by
  obtain ⟨effects, main, phase⟩ := self
  obtain ⟨n, hn, rfl⟩ := h
  cases hn with
  | created => exact ⟨3, .drainingGrpc, by simp [continueShutdown, shutdownEffects, markGrpcNotServing]⟩
  | drainingGrpc => exact ⟨4, .cleaningHealth, by simp [continueShutdown, shutdownEffects]⟩
  | cleaningHealth => exact ⟨5, .finished, by simp [continueShutdown, shutdownEffects]⟩
  | abandonedDraining => exact ⟨3, .abandonedDraining, rfl⟩
  | _ => exact ⟨_, by constructor, rfl⟩

theorem Going.cancel (h : Going started self.effects self.shutdown) :
    Going started self.cancelShutdown.effects self.cancelShutdown.shutdown := by
  obtain ⟨effects, main, phase⟩ := self
  obtain ⟨n, hn, rfl⟩ := h
  cases hn with
  | created => exact ⟨0, .abandoned, rfl⟩
  | drainingGrpc | abandonedDraining => exact ⟨3, .abandonedDraining, rfl⟩
  | cleaningHealth => exact ⟨5, .finished, by simp [cancelShutdown, shutdownEffects]⟩
  | _ => exact ⟨_, by constructor, rfl⟩

structure Inv (started : List Effect) (process : Serve) : Prop where
  going : Going started process.effects process.shutdown
  failed : ∀ x, process.main = .failed x → process.effects = started
  awaited : process.main = .awaiting → process.shutdown ≠ none
  ended : process.main = .ended → process.shutdown = some .finished ∨ process.shutdown = some .abandoned

theorem Inv.of_serving {process : Serve} (hgoing : Going started process.effects process.shutdown)
    (hmain : process.main = .serving) : Inv started process := by
  refine ⟨hgoing, ?_, ?_, ?_⟩ <;> rw [hmain] <;> nofun

theorem Inv.of_awaiting {process : Serve} (hgoing : Going started process.effects process.shutdown)
    (hmain : process.main = .awaiting) (hshutdown : process.shutdown ≠ none) : Inv started process := by
  refine ⟨hgoing, ?_, fun _ => hshutdown, ?_⟩ <;> rw [hmain] <;> nofun

theorem beginShutdown_main (self : Serve) : self.beginShutdown.main = self.main := by
  unfold beginShutdown
  split <;> rfl

theorem continueShutdown_main (self : Serve) (raised : Bool) : (self.continueShutdown raised).main = self.main := by
  unfold continueShutdown
  split <;> rfl

theorem cancelShutdown_main (self : Serve) : self.cancelShutdown.main = self.main := by
  unfold cancelShutdown
  split <;> rfl

theorem beginShutdown_ne (self : Serve) : self.beginShutdown.shutdown ≠ none := by
  obtain ⟨effects, main, phase⟩ := self
  cases phase <;> nofun

theorem continueShutdown_ne (raised : Bool) (h : self.shutdown ≠ none) :
    (self.continueShutdown raised).shutdown ≠ none := by
  unfold continueShutdown
  split
  · nofun
  · nofun
  · nofun
  · exact h

theorem cancelShutdown_ne (h : self.shutdown ≠ none) : self.cancelShutdown.shutdown ≠ none := by
  unfold cancelShutdown
  split
  · nofun
  · nofun
  · nofun
  · exact h

theorem step_inv (h : Inv started self) (turn : ServeTurn) : Inv started (self.step turn) := by
  have hgoing := h.going
  unfold step
  split
  · rename_i hmain
    exact .of_serving hgoing.begin ((beginShutdown_main self).trans hmain)
  · rename_i hmain
    exact .of_awaiting hgoing.begin ((beginShutdown_main self).trans hmain) (beginShutdown_ne self)
  · exact .of_awaiting hgoing.begin rfl (beginShutdown_ne self)
  · rename_i raised hmain
    exact .of_serving (hgoing.continue raised) ((continueShutdown_main self raised).trans hmain)
  · rename_i raised hmain
    exact .of_awaiting (hgoing.continue raised) ((continueShutdown_main self raised).trans hmain)
      (continueShutdown_ne raised (h.awaited hmain))
  · rename_i hmain
    exact .of_awaiting hgoing.cancel ((cancelShutdown_main self).trans hmain)
      (cancelShutdown_ne (h.awaited hmain))
  · split
    · rename_i hphase
      exact ⟨hgoing, nofun, nofun, fun _ => Or.inl hphase⟩
    · rename_i hphase
      exact ⟨hgoing, nofun, nofun, fun _ => Or.inr hphase⟩
    · exact h
  · exact h

theorem run_inv (h : Inv started self) (turns : List ServeTurn) : Inv started (self.run turns) := by
  induction turns generalizing self with
  | nil => exact h
  | cons turn turns ih => exact ih (step_inv h turn)

theorem start_inv (outside : Outside) (settings : Process.Settings) :
    Inv (startup outside settings []).2 (start outside settings) ∧
      (start outside settings).shutdown = none ∧
      ∀ x, (start outside settings).main = .failed x → (startup outside settings []).1 = .error x := by
  unfold start
  rcases startup outside settings [] with ⟨x | a, effects⟩
  · refine ⟨⟨⟨0, .none, by simp⟩, fun _ _ => rfl, nofun, nofun⟩, rfl, ?_⟩
    intro y hy
    cases hy
    rfl
  · exact ⟨⟨⟨0, .none, by simp⟩, nofun, nofun, nofun⟩, rfl, nofun⟩

end Serve

theorem Startup.failed {x : StartError} (h : Startup outside settings (.error x) effects) :
    .stopStore ∈ effects ↔ .createStore ∈ effects ∧
      ∃ port, listenPort outside.readBytes (listenAddr settings) settings = .ok port ∧
        outside.addPort port = .ok 0 := by
  have hne : ∀ {port : Effect}, listenPort outside.readBytes (listenAddr settings) settings = .ok port →
      Effect.stopStore ≠ port := fun hport => (listenPort_follows hport).ne.2.symm
  cases h with
  | nothing => simp
  | noPort h => simp [prepared, h]
  | portRaised hport h => simp [prepared, hport, h, hne hport]
  | notBound _ hport h => simp [prepared, hport, h]
  | notStarted _ hport h hn => simp [prepared, hport, h, hn, hne hport]
  | noHealth _ hport h hn | noSite _ hport h hn => simp [prepared, hport, h, hn, hne hport]

theorem shutdownEffects_isPort {effect : Effect} (h : effect ∈ Serve.shutdownEffects) :
    effect.isPort = false ∧ effect ≠ .startGrpc := by
  revert h
  simp only [Serve.shutdownEffects, List.mem_cons, List.not_mem_nil, or_false]
  rintro (rfl | rfl | rfl | rfl | rfl) <;> simp [Effect.isPort]

theorem filter_prepared (hport : port.isPort = true) (rest : List Effect) :
    (prepared ++ port :: rest).filter Effect.isPort = port :: rest.filter Effect.isPort := by
  rw [List.filter_append, List.filter_cons_of_pos hport]
  rfl

theorem split_startGrpc {first rest before later : List Effect} (hfirst : .startGrpc ∉ first)
    (hrest : .startGrpc ∉ rest) (h : first ++ .startGrpc :: rest = before ++ .startGrpc :: later) :
    before = first := by
  have hbefore : Effect.startGrpc ∉ before := by
    intro hmem
    have hcount := congrArg (List.count Effect.startGrpc) h
    have hone := List.count_pos_iff.mpr hmem
    simp only [List.count_append, List.count_cons_self, List.count_eq_zero.mpr hfirst,
      List.count_eq_zero.mpr hrest] at hcount
    omega
  rcases List.append_eq_append_iff.mp h with ⟨more, hmore, heq⟩ | ⟨more, hmore, heq⟩
  · cases more with
    | nil => simpa using hmore
    | cons effect more =>
      injection heq with heffect
      subst heffect hmore
      simp at hbefore
  · cases more with
    | nil => simpa using hmore.symm
    | cons effect more =>
      injection heq with heffect
      subst heffect hmore
      simp at hfirst

theorem Listens.of_no_port (hports : effects.filter Effect.isPort = []) (hgrpc : .startGrpc ∉ effects) :
    Listens outside settings effects := by
  refine ⟨Or.inl hports, ?_⟩
  rintro before later rfl
  simp at hgrpc

theorem Listens.of_port (hfollows : PortFollows outside.readBytes settings port) {rest : List Effect}
    (hrest : rest.filter Effect.isPort = []) (hgrpc : .startGrpc ∉ rest) :
    Listens outside settings (prepared ++ port :: rest) := by
  refine ⟨Or.inr ⟨port, hfollows, Or.inl ?_⟩, ?_⟩
  · rw [filter_prepared hfollows.isPort, hrest]
  · intro before later h
    have hmem : Effect.startGrpc ∈ prepared ++ port :: rest := by simp [h]
    simp [prepared, hfollows.ne.1.symm, hgrpc] at hmem

theorem Listens.of_bound (hfollows : PortFollows outside.readBytes settings port) {n : ℤ}
    (hbind : outside.addPort port = .ok n) (hn : n ≠ 0) {rest : List Effect} (hgrpc : .startGrpc ∉ rest)
    (hrest : rest.filter Effect.isPort = [] ∨
      rest.filter Effect.isPort = [.startHealth settings.healthHost settings.healthPort]) :
    Listens outside settings (prepared ++ port :: .startGrpc :: rest) := by
  have hports : (prepared ++ port :: .startGrpc :: rest).filter Effect.isPort =
      port :: rest.filter Effect.isPort := filter_prepared hfollows.isPort _
  refine ⟨Or.inr ⟨port, hfollows, ?_⟩, ?_⟩
  · rw [hports]
    exact hrest.imp (congrArg _) (congrArg _)
  · intro before later h
    have hbefore : before = prepared ++ [port] := by
      refine split_startGrpc ?_ hgrpc (by simpa using h)
      simp [prepared, hfollows.ne.1.symm]
    subst hbefore
    exact ⟨port, n, hfollows, filter_prepared hfollows.isPort [], hbind, hn⟩

/-- A shutdown, as far as it comes, neither listens nor starts. -/
theorem Startup.listens {result : Except StartError Unit} (h : Startup outside settings result effects)
    {more : List Effect} (hports : more.filter Effect.isPort = []) (hgrpc : .startGrpc ∉ more) :
    Listens outside settings (effects ++ more) := by
  cases h with
  | nothing => exact .of_no_port hports hgrpc
  | noPort => exact .of_no_port (by rw [List.filter_append, hports]; rfl) (by simp [prepared, hgrpc])
  | portRaised hport | notStarted _ hport =>
    rw [List.append_assoc]
    exact .of_port (listenPort_follows hport) hports hgrpc
  | notBound _ hport =>
    rw [List.append_assoc]
    exact .of_port (listenPort_follows hport) hports (by simp [hgrpc])
  | noHealth _ hport hbind hn =>
    rw [List.append_assoc]
    exact .of_bound (listenPort_follows hport) hbind hn hgrpc (Or.inl hports)
  | noSite _ hport hbind hn | started hport hbind hn =>
    rw [List.append_assoc]
    refine .of_bound (listenPort_follows hport) hbind hn (by simp [hgrpc]) ?_
    exact Or.inr ((List.filter_cons_of_pos rfl).trans (congrArg _ hports))

/-- In its whole life the process listens on no port for gRPC but one of the kind that is set, with the
credentials that are in the files, and it starts to serve only when it has that port; beside it there
is the port for health. -/
theorem serve_listens_as_set (outside : Outside) (settings : Process.Settings) (turns : List ServeTurn) :
    Listens outside settings ((Serve.start outside settings).run turns).effects := by
  obtain ⟨hstart, -⟩ := Serve.start_inv outside settings
  obtain ⟨n, -, heffects⟩ := (Serve.run_inv hstart turns).going
  rw [heffects]
  refine (startup_cases outside settings).listens ?_ ?_
  · apply List.filter_eq_nil_iff.mpr
    intro effect heffect
    rw [(shutdownEffects_isPort (List.mem_of_mem_take heffect)).1]
    exact Bool.false_ne_true
  · intro hmem
    exact absurd rfl (shutdownEffects_isPort (List.mem_of_mem_take hmem)).2

end TinyCache
