import TinyCache.Proofs.Cli

/-! The exit code of a write tells what became of it: its value is there, its condition was not met, or
something is wrong. -/

namespace TinyCache.Cli

open Machine

variable {env : Environment} {args : Args} {proto : Protobuf}

/-- The command gets as far as a call of a place in the store. -/
def Asks (env : Environment) (args : Args) (rpc : Rpc) (K : Key) : Prop :=
  validateValueArgs args.command = none ∧ args.command.rpc? env = .ok (some rpc) ∧
    place (context env args).metadata rpc.key = .ok K

theorem Asks.unique {rpc rpc' : Rpc} {K K' : Key} (h : Asks env args rpc K) (h' : Asks env args rpc' K') :
    rpc = rpc' ∧ K = K' := by
  obtain ⟨-, hrpc, hplace⟩ := h
  obtain ⟨-, hrpc', hplace'⟩ := h'
  rw [hrpc, Except.ok.injEq, Option.some.injEq] at hrpc'
  subst hrpc'
  rw [hplace, Except.ok.injEq] at hplace'
  exact ⟨rfl, hplace'⟩

inductive IsWrite : Rpc → Prop
  | set (request : CacheItem) : IsWrite (.set request)
  | setIfAbsent (request : CacheItem) : IsWrite (.setIfAbsent request)
  | compareAndSet (request : CompareAndSetRequest) : IsWrite (.compareAndSet request)

section

variable {maxValueBytes : ℤ} {clock : ℕ → Time} {old : Option CacheEntry} {K : Key} {rpc : Rpc}

/-- The exit code for a write that would store this, if its condition is met. -/
def writtenCode (maxValueBytes : ℤ) : Option Bytes → ℕ
  | some value => if getsizeof value > maxValueBytes then 2 else 0
  | none => 1

theorem exitCode_written (h : IsWrite rpc) :
    (report env args (rpc.answer (requestId env args)
        (.ok ((rpc.op K).onCell maxValueBytes clock old).1))).exitCode =
      writtenCode maxValueBytes (rpc.stores? (clock 0) old) := by
  cases h with
  | set request =>
    simp only [Rpc.op, Op.onCell, Rpc.stores?, admission, writtenCode]
    split_ifs <;> rfl
  | setIfAbsent request =>
    simp only [Rpc.op, Op.onCell, Rpc.stores?, admission]
    cases old.filter fun e => !e.isExpired (clock 0) with
    | some e => rfl
    | none =>
      simp only [Option.isSome_none, Bool.false_eq_true, if_false, writtenCode]
      split_ifs <;> rfl
  | compareAndSet request =>
    simp only [Rpc.op, Op.onCell, Rpc.stores?, admission]
    cases old.filter fun e => !e.isExpired (clock 0) with
    | none => rfl
    | some e =>
      by_cases he : e.value = request.expectedValue
      · simp only [he, ne_eq, not_true_eq_false, if_false, if_true, writtenCode]
        split_ifs <;> rfl
      · simp only [he, ne_eq, not_false_eq_true, if_true, if_false]
        rfl

end

theorem exitCode_accepted {clock : ℕ → Time} {rpc : Rpc} {K : Key} {reply : Reply} (h : IsWrite rpc)
    (haccepted : accepted? ⟨.client (rpc.op K), clock⟩ (.ok reply) ≠ none) :
    (report env args (rpc.answer (requestId env args) (.ok reply))).exitCode = 0 := by
  cases h with
  | set request | setIfAbsent request | compareAndSet request =>
    rcases reply with _ | (_ | _ | _) | (_ | _ | _ | _ | _ | _) | _ | _ | _
    all_goals first | exact absurd rfl haccepted | rfl

section

variable {clock : ℕ → Time} {s : CacheStore} {rpc : Rpc} {K : Key}

theorem Asks.exitCode (hs : s.Inv) (hwrite : IsWrite rpc) (h : Asks env args rpc K) :
    (atStore env proto clock args .answered s).1.exitCode =
      writtenCode s.limits.maxValueBytes (rpc.stores? (clock 0) (s.entries K)) := by
  obtain ⟨hclash, hrpc, hplace⟩ := h
  rw [atStore_eq hs hclash hrpc hplace]
  exact exitCode_written hwrite

/-- A write that is not accepted leaves the other places alone. -/
theorem Asks.other (hs : s.Inv) (hwrite : IsWrite rpc) (h : Asks env args rpc K)
    (hcode : (atStore env proto clock args .answered s).1.exitCode ≠ 0) {x : Key} (hx : x ≠ K) :
    (atStore env proto clock args .answered s).2.entries x = s.entries x := by
  obtain ⟨hclash, hrpc, hplace⟩ := h
  have hkey : (rpc.op K).key? = some K := by cases rpc <;> rfl
  rw [atStore_eq hs hclash hrpc hplace] at hcode ⊢
  have hallowed := (CacheStore.step_outcome hs.counted ⟨.client (rpc.op K), clock⟩).allowed
  have hanswer := CacheStore.step_answer hs hkey clock
  rw [place_valid hplace] at hanswer
  rw [hanswer] at hallowed
  rcases hallowed.other hkey hx with h | ⟨-, haccepted | ⟨y, hy⟩⟩
  · exact h
  · exact absurd (exitCode_accepted hwrite haccepted) hcode
  · cases hy

end

end TinyCache.Cli
