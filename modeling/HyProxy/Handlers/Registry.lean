import HyProxy.Handlers.Chain
import Mathlib.Data.List.Forall2

/-!
# The handler registry and `BuildChain`

Handlers are made by name. Each handler's file registers a factory under its name in an `init`
function, `Register` keeping the last factory given for a name; `BuildChain` turns the
configuration's list of `{type, config}` entries into a chain, asking the registry for each
entry's factory and the factory for a handler, and fails on the first entry it cannot build:
an unregistered type, or a factory that answers an error.

A factory takes the entry's raw JSON and answers a handler or an error, of which the model
keeps the message. The two handlers whose factories are in this repository and that the chain
model can hold, `ExampleHandler` and `LogSNIHandler`, ignore their config and continue at
every call; `LogSNIHandler`'s log line is not modelled. The terminator's factory loads a
certificate and opens its listener: it is a parameter of the registry the `init` functions
build.

## What is proved

`buildChain_spec`: `BuildChain` answers the chain of the entries' handlers, one per entry in
their order, when every entry builds, and otherwise the FIRST failing entry's error, with its
text. The loop, with its accumulator, is proved to be `List.mapM` of one entry's build
(`buildChainLoop_eq`), and `mapM` over `Except` is characterised once, for any function
(`mapM_except_ok_iff`, `mapM_except_error_iff`).

## What this does not decide

`ListHandlers`: it lists the registry's names in Go's map order, which is unspecified.
-/

set_option autoImplicit false

namespace HyProxy.Handlers

/-! ## The code -/

/-- `HandlerConfig`: the handler's type and its raw JSON config. -/
structure HandlerConfig where
  type : String
  config : List UInt8

/-- `HandlerFactory`: a handler from the raw JSON config, or the error's message. -/
def HandlerFactory : Type := List UInt8 → Except String Handler

/-- The `registry` map, by lookup. -/
structure Registry where
  load : String → Option HandlerFactory

/-- The empty `registry`, before any `init`. -/
def Registry.empty : Registry := ⟨fun _ => none⟩

/-- `Register(name, factory)`: `registry[name] = factory`. -/
def Registry.register (r : Registry) (name : String) (factory : HandlerFactory) : Registry :=
  ⟨fun k => if k = name then some factory else r.load k⟩

/-- The body of `BuildChain`'s loop for one entry: its type's factory applied to its config. -/
def buildHandler (r : Registry) (cfg : HandlerConfig) : Except String Handler :=
  match r.load cfg.type with
  | none => .error ("unknown handler type: " ++ cfg.type)
  | some factory =>
    match factory cfg.config with
    | .error err => .error ("failed to create handler " ++ cfg.type ++ ": " ++ err)
    | .ok h => .ok h

/-- The loop `for _, cfg := range configs` of `BuildChain`, with `handlers` the ones appended
so far. -/
def buildChainLoop (r : Registry) : List Handler → List HandlerConfig → Except String (List Handler)
  | handlers, [] => .ok handlers
  | handlers, cfg :: cfgs =>
    match buildHandler r cfg with
    | .error err => .error err
    | .ok h => buildChainLoop r (handlers ++ [h]) cfgs

/-- `BuildChain(configs)`: `NewChain(handlers...)` when every entry builds. -/
def buildChain (r : Registry) (configs : List HandlerConfig) : Except String Chain :=
  Chain.mk <$> buildChainLoop r [] configs

/-- A handler whose every method continues and changes nothing. -/
def passiveHandler : Handler :=
  ⟨fun ctx => (ctx, ⟨.continue, none⟩), fun ctx _ _ => (ctx, ⟨.continue, none⟩), id⟩

/-- `ExampleHandler`. -/
def exampleHandler : Handler := passiveHandler

/-- `NewExampleHandler`: the config is ignored. -/
def newExampleHandler : HandlerFactory := fun _ => .ok exampleHandler

/-- `LogSNIHandler`, up to its log line. -/
def logSNIHandler : Handler := passiveHandler

/-- `NewLogSNIHandler`: the config is ignored. -/
def newLogSNIHandler : HandlerFactory := fun _ => .ok logSNIHandler

/-- The `registry` once the `init` functions ran: `example`, `logsni`, then `terminator` with
its factory. -/
def Registry.atInit (newTerminatorHandler : HandlerFactory) : Registry :=
  ((Registry.empty.register "example" newExampleHandler).register "logsni"
    newLogSNIHandler).register "terminator" newTerminatorHandler

/-! ## `mapM` over `Except` -/

section MapM

variable {α β ε : Type} (f : α → Except ε β)

theorem mapM_cons_except (a : α) (l : List α) :
    (a :: l).mapM f = match f a with
      | .error e => .error e
      | .ok b => (l.mapM f).map (b :: ·) := by
  rw [List.mapM_cons]
  cases f a with
  | error e => rfl
  | ok b => cases l.mapM f <;> rfl

/-- `mapM` answers a list exactly when each element answers the entry at its place. -/
theorem mapM_except_ok_iff :
    ∀ (l : List α) (bs : List β), l.mapM f = .ok bs ↔ List.Forall₂ (fun a b => f a = .ok b) l bs
  | [], bs => by
    rw [List.forall₂_nil_left_iff]
    exact ⟨fun h => (Except.ok.inj h).symm, fun h => h ▸ rfl⟩
  | a :: l, bs => by
    rw [mapM_cons_except]
    cases ha : f a with
    | error e => exact iff_of_false (fun h => by cases h) fun h => by cases h; simp_all
    | ok b =>
      cases hl : l.mapM f with
      | error e =>
        refine iff_of_false (fun h => by cases h) fun h => ?_
        cases h with
        | cons _ h => exact absurd ((mapM_except_ok_iff l _).mpr h) (by rw [hl]; intro h; cases h)
      | ok bs' =>
        cases bs with
        | nil => exact iff_of_false (fun h => by cases h) fun h => by cases h
        | cons b'' bs =>
          rw [List.forall₂_cons, ← mapM_except_ok_iff l bs, hl, ha]
          simp [Except.map]

/-- `mapM` answers an error exactly when some element does and every element before it
answers a value: the error is the first one. -/
theorem mapM_except_error_iff (e : ε) :
    ∀ l : List α, l.mapM f = .error e ↔
      ∃ pre a post, l = pre ++ a :: post ∧ (∀ x ∈ pre, ∃ b, f x = .ok b) ∧ f a = .error e
  | [] => iff_of_false (fun h => by cases h) fun ⟨pre, _, _, h, _⟩ => by cases pre <;> cases h
  | a :: l => by
    rw [mapM_cons_except]
    cases ha : f a with
    | error e' =>
      constructor
      · rintro ⟨⟩
        exact ⟨[], a, l, rfl, fun _ h => absurd h (List.not_mem_nil _), ha⟩
      · rintro ⟨pre, a', post, hl, hpre, ha'⟩
        cases pre with
        | nil =>
          obtain ⟨rfl, -⟩ := List.cons.inj hl
          rw [ha] at ha'
          cases ha'
          rfl
        | cons p pre =>
          obtain ⟨rfl, -⟩ := List.cons.inj hl
          obtain ⟨b, hb⟩ := hpre a (List.mem_cons_self _ _)
          rw [ha] at hb
          cases hb
    | ok b =>
      have ih := mapM_except_error_iff e l
      constructor
      · intro h
        obtain ⟨pre, a', post, rfl, hpre, ha'⟩ :=
          ih.mp (by cases hl : l.mapM f <;> rw [hl] at h <;> cases h; rfl)
        refine ⟨a :: pre, a', post, rfl, ?_, ha'⟩
        rintro x (_ | ⟨_, hx⟩)
        · exact ⟨b, ha⟩
        · exact hpre x hx
      · rintro ⟨pre, a', post, hl, hpre, ha'⟩
        cases pre with
        | nil =>
          obtain ⟨rfl, -⟩ := List.cons.inj hl
          rw [ha] at ha'
          cases ha'
        | cons p pre =>
          obtain ⟨-, rfl⟩ := List.cons.inj hl
          rw [ih.mpr ⟨pre, a', post, rfl, fun x hx => hpre x (List.mem_cons_of_mem _ hx), ha'⟩]
          rfl

end MapM

/-! ## `BuildChain` -/

/-- The loop with its accumulator is the accumulator followed by `mapM` of the body. -/
theorem buildChainLoop_eq (r : Registry) :
    ∀ (handlers : List Handler) (configs : List HandlerConfig),
      buildChainLoop r handlers configs = (handlers ++ ·) <$> configs.mapM (buildHandler r)
  | handlers, [] => congrArg Except.ok (List.append_nil handlers).symm
  | handlers, cfg :: cfgs => by
    rw [buildChainLoop, mapM_cons_except]
    cases buildHandler r cfg with
    | error err => rfl
    | ok h =>
      dsimp only
      rw [buildChainLoop_eq r (handlers ++ [h]) cfgs]
      cases cfgs.mapM (buildHandler r) <;> simp [Functor.map, Except.map]

/-- THE SPEC OF `BuildChain`: it answers a chain exactly when every entry builds, the chain of
their handlers in the entries' order; and it answers an error exactly when some entry fails and
every entry before it builds, that FIRST failing entry's error: "unknown handler type: T" for
an unregistered type, "failed to create handler T: err" for a factory's error. -/
theorem buildChain_spec (r : Registry) (configs : List HandlerConfig) :
    (∀ c, buildChain r configs = .ok c ↔
      List.Forall₂ (fun cfg h => buildHandler r cfg = .ok h) configs c.handlers) ∧
    (∀ e, buildChain r configs = .error e ↔ ∃ pre cfg post, configs = pre ++ cfg :: post ∧
      (∀ x ∈ pre, ∃ h, buildHandler r x = .ok h) ∧ buildHandler r cfg = .error e) := by
  have hmap : buildChain r configs = Chain.mk <$> configs.mapM (buildHandler r) := by
    rw [buildChain, buildChainLoop_eq]
    cases configs.mapM (buildHandler r) <;> rfl
  refine ⟨fun ⟨hs⟩ => ?_, fun e => ?_⟩
  · rw [← mapM_except_ok_iff, hmap]
    cases configs.mapM (buildHandler r) <;> simp [Functor.map, Except.map]
  · rw [← mapM_except_error_iff, hmap]
    cases configs.mapM (buildHandler r) <;> simp [Functor.map, Except.map]

end HyProxy.Handlers
