/-!
# The handler chain

`Handler` is the interface every handler implements, and `Chain` runs a list of them. For
`OnConnect` and `OnPacket` the chain calls each handler in turn, on the context the ones before
it left, and stops at the first result that is not `Continue`, which it returns; when every
handler continues it returns `Drop`: a connection no handler claimed is not a valid one.
`OnDisconnect` calls every handler, in order.

A handler is modelled by what its methods do: each takes the context and returns it updated,
with a result for `OnConnect` and `OnPacket`. The chain's calls are recorded by the handlers'
indices, in the order it makes them. `Context` is not in the repository's files; it is
modelled from the spec.

## What is proved

- `Chain.loop_spec`: the loop of `OnConnect` and `OnPacket`, measured against `callEach`, which
  calls every handler whatever the results: the chain makes exactly the calls up to the first
  result that does not continue, and returns that result (`StopsAtFirst`);
- `Chain.disconnectAll_eq`: `OnDisconnect` calls every handler once, in order;
- `chain_semantics`: the three methods of a chain, from the two.
-/

set_option autoImplicit false

namespace HyProxy.Handlers

/-! ## The context and the handlers' results -/

/-- Modelled from the spec: a context value, retrieved "by type-tagged accessor". Only strings
are read by the modelled code. -/
inductive Value
  | str (s : String)
  | other
  deriving DecidableEq

/-- Modelled from the spec: the session's typed key-value map, and the Initial packet's bytes
stored in it (`nil` when none was stored). -/
structure Context where
  initialPacket : Option (List UInt8)
  values : String → Option Value

/-- Modelled from the spec: `ctx.GetString(key)`, the zero value `""` when the key is missing
or holds another type. -/
def Context.getString (ctx : Context) (key : String) : String :=
  match ctx.values key with
  | some (.str s) => s
  | _ => ""

/-- Modelled from the spec: `ctx.Set(key, v)`; last write wins. -/
def Context.set (ctx : Context) (key : String) (v : Value) : Context :=
  { ctx with values := fun k => if k = key then some v else ctx.values k }

/-- `Action`. -/
inductive Action
  | «continue»
  | handled
  | drop
  deriving DecidableEq

/-- `Result`: the action, and the error's message when there is one. -/
structure Result where
  action : Action
  error : Option String
  deriving DecidableEq

/-! ## Handlers and the chain -/

/-- `Direction`. -/
inductive Direction
  | inbound
  | outbound
  deriving DecidableEq

/-- A `Handler`, by what its methods do to the context and return. `Name` is left out. -/
structure Handler where
  onConnect : Context → Context × Result
  onPacket : Context → List UInt8 → Direction → Context × Result
  onDisconnect : Context → Context

/-- `Chain`. -/
structure Chain where
  handlers : List Handler

/-- The loop `for _, h := range c.handlers` of `Chain.OnConnect` and `Chain.OnPacket`, with
`call h ctx` the method it calls: the context, the result, and the indices of the handlers
called, in order. -/
def Chain.loop (call : Handler → Context → Context × Result) :
    List Handler → Context → Context × Result × List Nat
  | [], ctx => (ctx, ⟨.drop, none⟩, [])
  | h :: hs, ctx =>
    let (ctx, result) := call h ctx
    if result.action ≠ .continue then (ctx, result, [0])
    else
      let (ctx, r, calls) := Chain.loop call hs ctx
      (ctx, r, 0 :: calls.map (· + 1))

/-- `Chain.OnConnect(ctx)`. -/
def Chain.onConnect (c : Chain) (ctx : Context) : Context × Result × List Nat :=
  Chain.loop (fun h => h.onConnect) c.handlers ctx

/-- `Chain.OnPacket(ctx, packet, dir)`. -/
def Chain.onPacket (c : Chain) (ctx : Context) (packet : List UInt8) (dir : Direction) :
    Context × Result × List Nat :=
  Chain.loop (fun h ctx => h.onPacket ctx packet dir) c.handlers ctx

/-- The loop of `Chain.OnDisconnect`: every handler's `OnDisconnect`, in order. -/
def Chain.disconnectAll : List Handler → Context → Context × List Nat
  | [], ctx => (ctx, [])
  | h :: hs, ctx =>
    let (ctx, calls) := Chain.disconnectAll hs (h.onDisconnect ctx)
    (ctx, 0 :: calls.map (· + 1))

/-- `Chain.OnDisconnect(ctx)`. -/
def Chain.onDisconnect (c : Chain) (ctx : Context) : Context × List Nat :=
  Chain.disconnectAll c.handlers ctx

/-! ## What the chain is for -/

/-- Every handler called in turn, each on the context the one before it left, whatever the
results: the context and the result of each call. -/
def callEach (call : Handler → Context → Context × Result) :
    List Handler → Context → List (Context × Result)
  | [], _ => []
  | h :: hs, ctx => call h ctx :: callEach call hs (call h ctx).1

/-- What a chain run `out` from `ctx` must be, with `cs` the calls of every handler in turn:
when the `k`-th result is the first that does not continue, the run made exactly the calls
`0, ..., k` and returns the `k`-th context and result; when every result continues, it made
every call and returns the last context and `Drop`. -/
def StopsAtFirst (cs : List (Context × Result)) (ctx : Context)
    (out : Context × Result × List Nat) : Prop :=
  (∀ k (hk : k < cs.length), (∀ i (hi : i < k), cs[i].2.action = .continue) →
    cs[k].2.action ≠ .continue → out = (cs[k].1, cs[k].2, List.range (k + 1))) ∧
  ((∀ i (hi : i < cs.length), cs[i].2.action = .continue) →
    out = ((cs.getLast?.map Prod.fst).getD ctx, ⟨.drop, none⟩, List.range cs.length))

/-! ## The loops meet the spec -/

/-- The loop of `OnConnect` and `OnPacket` stops at the first result that does not continue. -/
theorem Chain.loop_spec (call : Handler → Context → Context × Result) :
    ∀ (hs : List Handler) (ctx : Context),
      StopsAtFirst (callEach call hs ctx) ctx (Chain.loop call hs ctx)
  | [], ctx => ⟨fun _ hk => absurd hk (Nat.not_lt_zero _), fun _ => rfl⟩
  | h :: hs, ctx => by
    obtain ⟨ihStop, ihAll⟩ := Chain.loop_spec call hs (call h ctx).1
    simp only [Chain.loop, callEach]
    by_cases hstop : (call h ctx).2.action = .continue
    · -- the first handler continues: the rest of the chain, one index further on
      rw [if_neg fun h' => h' hstop]
      refine ⟨fun k hk hpre hk' => ?_, fun hall => ?_⟩
      · cases k with
        | zero => exact absurd hstop hk'
        | succ k =>
          rw [ihStop k (by simpa using hk) (fun i hi => hpre (i + 1) (by omega)) hk']
          simp [List.range_succ_eq_map]
      · rw [ihAll (fun i hi => hall (i + 1) (by simpa using hi))]
        simp [List.range_succ_eq_map, List.getLast?_cons]
    · -- the first handler stops the chain
      rw [if_pos hstop]
      refine ⟨fun k hk hpre _ => ?_, fun hall => absurd (hall 0 (by simp)) hstop⟩
      cases k with
      | zero => rfl
      | succ k => exact absurd (hpre 0 (by omega)) hstop

/-- `OnDisconnect` calls every handler once, in order, on the context the ones before left. -/
theorem Chain.disconnectAll_eq :
    ∀ (hs : List Handler) (ctx : Context),
      Chain.disconnectAll hs ctx = (hs.foldl (fun ctx h => h.onDisconnect ctx) ctx,
        List.range hs.length)
  | [], _ => rfl
  | h :: hs, ctx => by
    simp [Chain.disconnectAll, Chain.disconnectAll_eq hs, List.range_succ_eq_map]

/-- THE CHAIN'S SEMANTICS: `OnConnect` and `OnPacket` call the handlers in order on the
threaded context up to the first result that does not continue, which they return, and return
`Drop` after calling every handler when all continue; `OnDisconnect` calls every handler once,
in order. -/
theorem chain_semantics (c : Chain) (ctx : Context) (packet : List UInt8) (dir : Direction) :
    StopsAtFirst (callEach (fun h => h.onConnect) c.handlers ctx) ctx (c.onConnect ctx) ∧
    StopsAtFirst (callEach (fun h ctx => h.onPacket ctx packet dir) c.handlers ctx) ctx
      (c.onPacket ctx packet dir) ∧
    c.onDisconnect ctx =
      (c.handlers.foldl (fun ctx h => h.onDisconnect ctx) ctx, List.range c.handlers.length) :=
  ⟨Chain.loop_spec _ _ _, Chain.loop_spec _ _ _, Chain.disconnectAll_eq _ _⟩

end HyProxy.Handlers
