import TinyCache.Proofs.SqliteAccounting
import TinyCache.Spec.Process

/-! The settings of the process: what stops it is a variable that somebody has set, and what is
accepted is what the store enforces. -/

namespace TinyCache

variable {py : Builtins} {letters : Casing} {getenv : Getenv} {envName : String} {x : PyError}

theorem Complains.intro {opening wants rest : String} (h : opening = " must be " ++ wants) :
    Complains envName (.valueError (envName ++ opening ++ rest)) :=
  ⟨wants ++ rest, by rw [h]; simp only [String.append_assoc]⟩

theorem toString_string (s : String) : toString s = s := rfl

theorem checkRange_ok {minValue maxValue : Option ℤ} {value : ℤ} (h : InRange minValue maxValue value) :
    checkRange envName minValue maxValue value = .ok ⟨value, h⟩ := by
  unfold checkRange
  split
  · rename_i m hm
    obtain ⟨hmin, hlt⟩ := Option.filter_eq_some_iff.mp hm
    exact absurd (h.1 m hmin) (by simpa using hlt)
  · split
    · rename_i m hm
      obtain ⟨hmax, hlt⟩ := Option.filter_eq_some_iff.mp hm
      exact absurd (h.2 m hmax) (by simpa using hlt)
    · rfl

theorem checkRange_val {minValue maxValue : Option ℤ} {value : ℤ} {b : { n : ℤ // InRange minValue maxValue n }}
    (h : checkRange envName minValue maxValue value = .ok b) : b.val = value := by
  unfold checkRange at h
  split at h
  · cases h
  · split at h
    · cases h
    · cases h
      rfl

theorem checkRange_error {minValue maxValue : Option ℤ} {value : ℤ} (h : ¬ InRange minValue maxValue value) :
    ∃ x, checkRange envName minValue maxValue value = .error x ∧ Complains envName x := by
  cases hcheck : checkRange envName minValue maxValue value with
  | ok b => exact absurd (checkRange_val hcheck ▸ b.property) h
  | error x =>
    refine ⟨x, rfl, ?_⟩
    unfold checkRange at hcheck
    split at hcheck
    · rename_i m hm
      cases hcheck
      have htext := @Complains.intro envName " must be >= " ">= " (toString m ++ ", got " ++ toString value) rfl
      simpa [toString_string, String.append_assoc] using htext
    · split at hcheck
      · rename_i m hm
        cases hcheck
        have htext := @Complains.intro envName " must be <= " "<= " (toString m ++ ", got " ++ toString value) rfl
        simpa [toString_string, String.append_assoc] using htext
      · cases hcheck

namespace Process

/-- What a getter makes of its variable: the value that the environment gives, or a complaint about a
text that somebody has set. -/
inductive Got {α β : Type} (getenv : Getenv) (v : Variable α) (val : β → α) : Except PyError β → Prop
  | ok {b : β} (h : v.read getenv = some (val b)) : Got getenv v val (.ok b)
  | error {rawValue : String} {x : PyError} (hset : getenv v.envName = some rawValue)
      (h : v.read getenv = none) (hx : Complains v.envName x) : Got getenv v val (.error x)

theorem getEnvInt_got {defaultValue : ℤ} {minValue maxValue : Option ℤ} {bounds : ℤ → Bool}
    (hbounds : ∀ value, bounds value = true ↔ InRange minValue maxValue value)
    (hdefault : bounds defaultValue = true) :
    Got getenv (intVariable py envName defaultValue bounds) Subtype.val
      (getEnvInt py getenv envName defaultValue minValue maxValue) := by
  have hread : ∀ {rawValue}, getenv envName = some rawValue →
      (intVariable py envName defaultValue bounds).read getenv = (py.int rawValue).filter bounds := by
    intro rawValue hset
    simp only [Variable.read, intVariable, hset]
  unfold getEnvInt
  split
  · rename_i hset
    rw [checkRange_ok ((hbounds _).mp hdefault)]
    exact .ok (by simp only [Variable.read, intVariable, hset])
  · rename_i rawValue hset
    split
    · rename_i hint
      refine .error hset ((hread hset).trans (by rw [hint]; rfl)) ?_
      have htext := @Complains.intro envName " must be an integer, got " "an integer, got " (py.repr rawValue) rfl
      simpa [intVariable, toString_string, String.append_assoc] using htext
    · rename_i value hint
      by_cases hr : InRange minValue maxValue value
      · rw [checkRange_ok hr]
        exact .ok ((hread hset).trans (by rw [hint, Option.filter_some, if_pos ((hbounds _).mpr hr)]))
      · obtain ⟨x, hx, htext⟩ := @checkRange_error envName _ _ _ hr
        rw [hx]
        refine .error hset ((hread hset).trans ?_) htext
        rw [hint, Option.filter_some, if_neg (mt (hbounds _).mp hr)]

theorem getEnvChoice_got {defaultValue : String} {allowedValues : List String} {normalize : String → String}
    (hdefault : normalize defaultValue = defaultValue) (hallowed : defaultValue ∈ allowedValues) :
    Got getenv (choiceVariable envName defaultValue allowedValues normalize) Subtype.val
      (getEnvChoice py getenv envName defaultValue allowedValues normalize) := by
  unfold getEnvChoice
  cases hset : getenv envName with
  | none =>
    simp only [hdefault]
    rw [dif_pos hallowed]
    exact .ok (by simp only [Variable.read, choiceVariable, hset])
  | some rawValue =>
    have hread : (choiceVariable envName defaultValue allowedValues normalize).read getenv =
        (some (normalize (strip rawValue))).filter (· ∈ allowedValues) := by
      simp only [Variable.read, choiceVariable, hset]
    dsimp only
    split_ifs with h
    · exact .ok (hread.trans (by simp [h]))
    · refine .error hset (hread.trans (by simp [h])) ?_
      have htext := @Complains.intro envName " must be one of: " "one of: "
        (", ".intercalate (allowedValues.insertionSort (· ≤ ·)) ++ "; got " ++
          py.repr (normalize (strip rawValue))) rfl
      simpa [choiceVariable, toString_string, String.append_assoc] using htext

theorem getEnvBool_got :
    Got getenv (boolVariable letters envName) id (getEnvBool py letters getenv envName false) := by
  unfold getEnvBool
  split
  · rename_i hset
    exact .ok (by simp only [Variable.read, boolVariable, hset, id])
  · rename_i rawValue hset
    have hread : (boolVariable letters envName).read getenv = (boolVariable letters envName).means rawValue := by
      simp only [Variable.read, boolVariable, hset]
    dsimp only
    split_ifs with htrue hfalse
    · exact .ok (hread.trans (if_pos htrue))
    · exact .ok (hread.trans ((if_neg htrue).trans (if_pos hfalse)))
    · refine .error hset (hread.trans ((if_neg htrue).trans (if_neg hfalse))) ?_
      have htext := @Complains.intro envName " must be a boolean, got " "a boolean, got " (py.repr rawValue) rfl
      simpa [boolVariable, toString_string, String.append_assoc] using htext

/-- The first `n` variables that are checked can be used. -/
def Usable (py : Builtins) (letters : Casing) (getenv : Getenv) (n : ℕ) : Prop :=
  ∀ p ∈ (checked py letters getenv).take n, p.2 = true

/-- The getter of the variable that is checked next: it can be used as well, or the loading stops. -/
theorem Got.next {α β : Type} {v : Variable α} {val : β → α} {m : Except PyError β}
    {f : β → Except PyError Settings} (n : ℕ) (hm : Got getenv v val m)
    (hn : (checked py letters getenv)[n]? = some (v.envName, (v.read getenv).isSome))
    (hbefore : Usable py letters getenv n)
    (hok : ∀ b, v.read getenv = some (val b) → Usable py letters getenv (n + 1) →
      Loaded py letters getenv (f b)) : Loaded py letters getenv (m >>= f) := by
  cases hm with
  | ok hread =>
    refine hok _ hread ?_
    intro p hp
    rw [List.take_add_one, hn, hread, List.mem_append] at hp
    rcases hp with hp | hp
    · exact hbefore p hp
    · rw [Option.mem_toList, Option.some.injEq] at hp
      rw [← hp]
      rfl
  | error hset hread hx =>
    rw [hread] at hn
    obtain ⟨hlt, hn⟩ := List.getElem?_eq_some_iff.mp hn
    have hsplit := (List.take_append_drop n (checked py letters getenv)).symm
    rw [List.drop_eq_getElem_cons hlt, hn] at hsplit
    exact .error hsplit hbefore hset hx

theorem positive_iff (value : ℤ) : positive value = true ↔ InRange (some 1) none value := by
  simp [positive, InRange]

theorem isPortNumber_iff (value : ℤ) : isPortNumber value = true ↔ InRange (some 1) (some 65535) value := by
  simp [isPortNumber, InRange]

theorem upper_default (letters : Casing) : letters.upper "INFO" = "INFO" := by
  rw [letters.upper_ascii _ (by decide +kernel)]
  decide +kernel

theorem lower_default (letters : Casing) :
    letters.lower "text" = "text" ∧ letters.lower "memory" = "memory" := by
  rw [letters.lower_ascii _ (by decide +kernel), letters.lower_ascii _ (by decide +kernel)]
  decide +kernel

/-- All that a constructor does on its database is to execute statements. -/
theorem init_error_eq {db : Engine} {args : LimitArgs} {limits : CacheStoreLimits} {c d : Connection}
    (hlimits : CacheStoreLimits.resolve args = .ok limits)
    (h : SqliteCacheStore.init db args c = (.error x, d)) : x = .sqliteError ∧ ¬ db.Reliable := by
  have hraised : ∀ {α : Type} {f : ℕ → Table → α × Table} {c : Connection},
      Connection.execute db f c = (.error x, d) → x = .sqliteError ∧ ¬ db.Reliable := by
    intro α f c hc
    unfold Connection.execute at hc
    split_ifs at hc with hraises
    · cases hc
      refine ⟨rfl, fun hdb => ?_⟩
      rw [hdb] at hraises
      cases hraises
    · cases hc
  have hbind : ∀ {α β : Type} {m : Act PyError Connection α} {f : α → Act PyError Connection β},
      (∀ c, m c = (.error x, d) → x = .sqliteError ∧ ¬ db.Reliable) →
      (∀ a c, f a c = (.error x, d) → x = .sqliteError ∧ ¬ db.Reliable) →
      ∀ c, (m >>= f) c = (.error x, d) → x = .sqliteError ∧ ¬ db.Reliable := by
    intro α β m f hm hf c h
    rcases Act.bind_error h with h | ⟨a, u, -, h⟩
    · exact hm c h
    · exact hf a u h
  unfold SqliteCacheStore.init at h
  rw [hlimits] at h
  refine hbind ?_ (fun _ => ?_) c h
  · intro c h
    cases h
  · refine hbind (fun _ => hraised) fun _ => hbind (fun _ => hraised) fun _ => hbind (fun _ => hraised)
      fun _ => hbind (fun _ => hraised) fun _ => hbind (fun _ => hraised) fun _ =>
        hbind (fun _ => hraised) fun _ c h => ?_
    cases h

theorem createCacheStore_created (db : Engine) (files : String → Connection) {settings : Settings}
    (h : settings.backend ∈ BACKENDS) : Created db files settings (createCacheStore db files settings) := by
  unfold createCacheStore
  split_ifs with hsqlite
  · rcases hinit : SqliteCacheStore.init db _ (files settings.sqlitePath) with ⟨x | store, c⟩
    · obtain ⟨rfl, hdb⟩ := init_error_eq settings.resolve_eq hinit
      exact .failed hsqlite hdb
    · obtain ⟨hlimits, htable, -⟩ := SqliteCacheStore.init_ok hinit
      rw [settings.resolve_eq] at hlimits
      exact .sqlite hsqlite (Except.ok.inj hlimits).symm htable
  · rw [createMemoryStore_eq]
    refine .memory ?_
    simpa [BACKENDS, hsqlite] using h

/-- A process that does not start has been given a variable that it cannot use, and names the first of
them. One that starts has the settings that the environment says, and a store that enforces them as
they are. -/
theorem load_settings_blames_a_variable (py : Builtins) (letters : Casing) (getenv : Getenv) :
    Loaded py letters getenv (loadSettings py letters getenv) := by
  unfold loadSettings TinyCache.loadSettings
  simp only [bind_assoc, pure_bind]
  apply (getEnvInt_got positive_iff rfl).next 0 rfl (fun _ h => absurd h List.not_mem_nil)
  intro memory (hmemory : (maxMemoryMb py).read getenv = some memory.val) husable
  apply (getEnvInt_got positive_iff rfl).next 1 rfl husable
  intro items (hitems : (maxItems py).read getenv = some items.val) husable
  have hvalues : ∀ value : ℤ, decide (1 ≤ value ∧ value ≤ memory.val * 1024 * 1024) = true ↔
      InRange (some 1) (some (memory.val * 1024 * 1024)) value := fun value => by simp [InRange]
  have hwhole : decide (1 ≤ memory.val * 1024 * 1024 ∧
      memory.val * 1024 * 1024 ≤ memory.val * 1024 * 1024) = true := by
    have hmin := memory.property.1 1 rfl
    simp only [decide_eq_true_eq]
    omega
  -- what a value may take depends on the memory that was read first
  have hchecked : (checked py letters getenv)[2]? =
      some ("CACHE_MAX_VALUE_BYTES", ((maxValueBytes py memory.val).read getenv).isSome) := by
    simp [checked, hmemory]
  apply (getEnvInt_got hvalues hwhole).next 2 hchecked husable
  intro value (hvalue : (maxValueBytes py memory.val).read getenv = some value.val) husable
  apply (getEnvInt_got positive_iff rfl).next 3 rfl husable
  intro interval (hinterval : (cleanupInterval py).read getenv = some interval.val) husable
  apply (getEnvInt_got isPortNumber_iff rfl).next 4 rfl husable
  intro grpcPort (hport : (port py).read getenv = some grpcPort.val) husable
  apply (getEnvInt_got isPortNumber_iff rfl).next 5 rfl husable
  intro httpPort (hhealthPort : (healthPort py).read getenv = some httpPort.val) husable
  apply (getEnvChoice_got (upper_default letters) (by decide)).next 6 rfl husable
  intro level (hlogLevel : (logLevel letters).read getenv = some level.val) husable
  apply (getEnvChoice_got (lower_default letters).1 (by decide)).next 7 rfl husable
  intro format (hlogFormat : (logFormat letters).read getenv = some format.val) husable
  apply (getEnvChoice_got (lower_default letters).2 (by decide)).next 8 rfl husable
  intro kind (hbackend : (backend letters).read getenv = some kind.val) husable
  apply getEnvBool_got.next 9 rfl husable
  intro enabled (htlsEnabled : (tlsEnabled letters).read getenv = some enabled) husable
  apply getEnvBool_got.next 10 rfl husable
  intro clientAuth (htlsRequireClientAuth : (tlsRequireClientAuth letters).read getenv = some clientAuth) _
  exact .ok
    { maxMemoryMb := hmemory, maxItems := hitems, maxValueBytes := hvalue, cleanupInterval := hinterval
      port := hport, healthPort := hhealthPort, logLevel := hlogLevel, logFormat := hlogFormat, backend := hbackend
      tlsEnabled := htlsEnabled, tlsRequireClientAuth := htlsRequireClientAuth, host := rfl, healthHost := rfl
      sqlitePath := rfl, tlsPaths := ⟨rfl, rfl, rfl⟩ }
    (min_eq_left (value.property.2 _ rfl)) fun db files => createCacheStore_created db files kind.property

end Process

end TinyCache
