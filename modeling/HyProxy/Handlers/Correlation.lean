import HyProxy.Handlers.Terminator
import Mathlib.Logic.Function.Basic

/-!
# Correlation across connections

The terminator serves many client connections at once, and their steps interleave: `OnConnect`
from the handler chain, the datagrams their forwarders relay reaching the DCID tracker,
`handleConnection` when the internal listener accepts one, `OnDisconnect` when one ends. This
module runs the terminator's steps of `Terminator.lean` as a state machine over a family of
connections, `step`, with what enables each step in the real system:

- `OnConnect` runs once per connection, and `OnDisconnect` once, after it;
- the forwarder relays only a connection whose `OnConnect` continued, and relays its Initial
  packet first; later datagrams are any bytes, and may come late, after `OnDisconnect`;
- the internal listener accepts a connection once, after its Initial reached the tracker.

## What is proved

- `Sys.inv_run`: when the connections' internal-listener addresses are pairwise distinct and so
  are their Initial DCIDs, every state a run reaches satisfies each connection's invariant
  `Sys.ConnInv`, from one preservation lemma per kind of step;
- `correlation_isolated`, from `Sys.Inv.handle_dials_own_backend` and
  `Sys.Inv.registry_isolated`: in every such state, a `handleConnection` that dials, dials its
  own connection's backend, and no step of one connection touches the registry entry of another
  that is still waiting;
- `registry_exact`: in every such state the registry holds exactly the waiting connections'
  backends under their DCIDs, from a second invariant, `Sys.RegistryKeys`: nothing leaks;
- `handle_outcome`: in every such state the listener's accept of a connection whose Initial
  reached the tracker dials that connection's own backend, or closes it with "no backend" when
  it already disconnected; it never finds no DCID mapping;
- `correlation_shared_dcid`: without distinct DCIDs, a second connection's `OnConnect`
  replaces the first one's entry and the first is dialed to the second's backend;
- `run_tracker_latch`: a latched tracker entry outlives every step but the `handleConnection`
  of a connection from its address;
- `tracker_latch_reused_address`: so an address reused after a connection that was never
  accepted keeps that connection's latch, and the next connection from it is refused.

## What this does not decide

The dial's own outcome, and the sessions after it. Distinct DCIDs are a premise: the client
chooses its Initial DCID.
-/

set_option autoImplicit false

namespace HyProxy.Handlers

open Go

/-! ## The system -/

/-- A client connection as the terminator meets it: the address its forwarder uses towards the
internal listener, its Initial packet, and the backend the router chose for it. -/
structure Client where
  addr : String
  initial : List UInt8
  backend : String

/-- The context the chain hands to `OnConnect`: the stored Initial packet, and `backend` as the
router set it. -/
def Client.context (c : Client) : Context :=
  ⟨some c.initial, fun k => if k = "backend" then some (.str c.backend) else none⟩

/-- Where a connection is: `OnConnect` ran, and continued (so the forwarder relays it); its
Initial reached the tracker; `handleConnection` ran; `OnDisconnect` ran. -/
structure Progress where
  connected : Bool
  admitted : Bool
  sent : Bool
  accepted : Bool
  ended : Bool
  deriving DecidableEq

/-- A connection before its first step. -/
def Progress.start : Progress := ⟨false, false, false, false, false⟩

/-- The terminator, and each connection's context and progress. -/
structure Sys (ι : Type) where
  term : TerminatorHandler
  ctx : ι → Context
  progress : ι → Progress

/-- A step of one connection. -/
inductive Event (ι : Type)
  | onConnect (i : ι)
  | datagram (i : ι) (p : List UInt8)
  | handle (i : ι)
  | onDisconnect (i : ι)

/-- What a step shows: a handler result, how `handleConnection` ended, or nothing. -/
inductive Output
  | result (r : Result)
  | outcome (o : Outcome)
  | quiet
  deriving DecidableEq

/-- The connection an event belongs to. -/
def Event.conn {ι : Type} : Event ι → ι
  | .onConnect i | .datagram i _ | .handle i | .onDisconnect i => i

section System

variable {ι : Type} [DecidableEq ι] (clients : ι → Client)

/-- The terminator as constructed, before any connection. -/
def Sys.init (internalAddr : String) : Sys ι :=
  ⟨⟨.empty, .empty, internalAddr⟩, fun i => (clients i).context, fun _ => .start⟩

/-- One step, `none` when the event is not enabled. -/
def step (s : Sys ι) : Event ι → Option (Sys ι × Output)
  | .onConnect i =>
    if (s.progress i).connected then none
    else do
      let (term, ctx, r) ← s.term.onConnect (s.ctx i)
      some (⟨term, Function.update s.ctx i ctx, Function.update s.progress i
        { s.progress i with connected := true, admitted := decide (r.action = .continue) }⟩,
        .result r)
  | .datagram i p =>
    if (s.progress i).admitted ∧ ((s.progress i).sent ∨ p = (clients i).initial) then do
      let tracker ← readFrom s.term.tracker (clients i).addr p
      some (⟨{ s.term with tracker }, s.ctx,
        Function.update s.progress i { s.progress i with sent := true }⟩, .quiet)
    else none
  | .handle i =>
    if (s.progress i).sent ∧ ¬(s.progress i).accepted then
      let (term, o) := s.term.handleConnection (clients i).addr
      some (⟨term, s.ctx, Function.update s.progress i { s.progress i with accepted := true }⟩,
        .outcome o)
    else none
  | .onDisconnect i =>
    if (s.progress i).connected ∧ ¬(s.progress i).ended then do
      let term ← s.term.onDisconnect (s.ctx i)
      some (⟨term, s.ctx, Function.update s.progress i { s.progress i with ended := true }⟩,
        .quiet)
    else none

/-- A run of events, with what each step showed; `none` when one is not enabled. -/
def run (s : Sys ι) : List (Event ι) → Option (Sys ι × List Output)
  | [] => some (s, [])
  | e :: es => do
    let (s', o) ← step clients s e
    let (s'', os) ← run s' es
    some (s'', o :: os)

end System

/-! ## What each step does -/

/-- A connection whose registry entry is due: its `OnConnect` continued, and neither its
`handleConnection` nor its `OnDisconnect` has run. -/
def Progress.waiting (p : Progress) : Bool := p.admitted && !p.accepted && !p.ended

section Steps

variable {ι : Type} [DecidableEq ι] {clients : ι → Client} {s s' : Sys ι} {o : Output} {j : ι}

theorem step_onConnect (h : step clients s (.onConnect j) = some (s', o)) :
    (s.progress j).connected = false ∧
    ∃ d, parseQUICDCID ((s.ctx j).initialPacket.getD []) = some d ∧
      ((s.ctx j).getString "backend" ≠ "" ∧ d ≠ "" ∧
        s' = ⟨{ s.term with backends := s.term.backends.store d ((s.ctx j).getString "backend") },
          Function.update s.ctx j ((s.ctx j).set "backend" (.str s.term.internalAddr)),
          Function.update s.progress j { s.progress j with connected := true, admitted := true }⟩ ∨
      s' = ⟨s.term, Function.update s.ctx j (s.ctx j),
          Function.update s.progress j { s.progress j with connected := true, admitted := false }⟩) := by
  simp only [step] at h
  split at h
  · cases h
  rename_i hc
  obtain ⟨d, hd, ⟨hb, hdne, hon⟩ | ⟨e, hon⟩⟩ := onConnect_spec s.term (s.ctx j)
  all_goals
    rw [hon, Option.bind_eq_bind, Option.some_bind] at h
    cases h
  · exact ⟨by simpa using hc, d, hd, .inl ⟨hb, hdne, rfl⟩⟩
  · exact ⟨by simpa using hc, d, hd, .inr rfl⟩

theorem step_datagram {p : List UInt8} (h : step clients s (.datagram j p) = some (s', o)) :
    (s.progress j).admitted = true ∧ ((s.progress j).sent = true ∨ p = (clients j).initial) ∧
    ∃ d, parseQUICDCID p = some d ∧ s'.term.backends = s.term.backends ∧ s'.ctx = s.ctx ∧
      s'.progress = Function.update s.progress j { s.progress j with sent := true } ∧
      ∀ a, s'.term.tracker.load a = if a = (clients j).addr ∧
        s.term.tracker.load (clients j).addr = none ∧ d ≠ "" then some d else s.term.tracker.load a := by
  simp only [step] at h
  split at h
  · rename_i hen
    obtain ⟨d, hd, m, hm, hload⟩ := readFrom_load s.term.tracker (clients j).addr p
    rw [hm, Option.bind_eq_bind, Option.some_bind] at h
    cases h
    exact ⟨hen.1, hen.2, d, hd, rfl, rfl, rfl, hload⟩
  · cases h

theorem step_handle (h : step clients s (.handle j) = some (s', o)) :
    (s.progress j).sent = true ∧ (s.progress j).accepted = false ∧ s'.ctx = s.ctx ∧
    s'.progress = Function.update s.progress j { s.progress j with accepted := true } ∧
    (s'.term, o) = (s.term.handleConnection (clients j).addr).map id .outcome := by
  simp only [step] at h
  split at h
  · rename_i hen
    cases h
    exact ⟨hen.1, by simpa using hen.2, rfl, rfl, rfl⟩
  · cases h

theorem step_onDisconnect (h : step clients s (.onDisconnect j) = some (s', o)) :
    (s.progress j).connected = true ∧ (s.progress j).ended = false ∧ s'.ctx = s.ctx ∧
    s'.progress = Function.update s.progress j { s.progress j with ended := true } ∧
    s'.term.tracker = s.term.tracker ∧ ∀ d, s'.term.backends.load d =
      if ∃ p, (s.ctx j).initialPacket = some p ∧ parseQUICDCID p = some d ∧ d ≠ "" then none
      else s.term.backends.load d := by
  simp only [step] at h
  split at h
  · rename_i hen
    obtain ⟨h', hon, htr, -, hload⟩ := onDisconnect_spec s.term (s.ctx j)
    rw [hon, Option.bind_eq_bind, Option.some_bind] at h
    cases h
    exact ⟨hen.1, by simpa using hen.2, rfl, rfl, htr, hload⟩
  · cases h

/-- A run that reaches a state takes its first step, then runs the rest from there. -/
theorem run_cons_some {e : Event ι} {es : List (Event ι)} {s s' : Sys ι} {os : List Output}
    (h : run clients s (e :: es) = some (s', os)) :
    ∃ s1 o1 os1, step clients s e = some (s1, o1) ∧ run clients s1 es = some (s', os1) := by
  simp only [run, Option.bind_eq_bind] at h
  obtain ⟨⟨s1, o1⟩, h1, h⟩ := Option.bind_eq_some.mp h
  obtain ⟨⟨s2, os2⟩, h2, h⟩ := Option.bind_eq_some.mp h
  cases h
  exact ⟨s1, o1, os2, h1, h2⟩

/-- A run of two pieces passes through a state that the first piece reaches. -/
theorem run_append_some :
    ∀ (es1 : List (Event ι)) {es2 : List (Event ι)} {s s' : Sys ι} {os : List Output},
      run clients s (es1 ++ es2) = some (s', os) →
        ∃ s1 os1 os2, run clients s es1 = some (s1, os1) ∧ run clients s1 es2 = some (s', os2)
  | [], _, s, _, _, h => ⟨s, [], _, rfl, h⟩
  | e :: es1, _, _, _, _, h => by
    obtain ⟨s1, o1, _, h1, h⟩ := run_cons_some h
    obtain ⟨s2, os1, os2, h2, h3⟩ := run_append_some es1 h
    exact ⟨s2, o1 :: os1, os2, by simp only [run, h1, Option.bind_eq_bind, Option.some_bind, h2], h3⟩

/-- A property that every enabled step keeps holds of every state a run reaches. -/
theorem run_preserves (P : Sys ι → Prop)
    (hstep : ∀ {s s' : Sys ι} {e : Event ι} {o : Output}, P s → step clients s e = some (s', o) → P s') :
    ∀ (es : List (Event ι)) {s s' : Sys ι} {os : List Output},
      P s → run clients s es = some (s', os) → P s'
  | [], _, _, _, hP, h => by cases h; exact hP
  | _ :: es, _, _, _, hP, h => by
    obtain ⟨_, _, _, h1, h2⟩ := run_cons_some h
    exact run_preserves P hstep es (hstep hP h1) h2

end Steps

/-! ## The invariant -/

section Invariant

variable {ι : Type} {clients : ι → Client}

/-- What every state a run reaches satisfies for one connection, when the connections'
addresses and Initial DCIDs are distinct: its context is the chain's; once admitted it has a
DCID; the tracker holds nothing for its address until its Initial arrives, and that Initial's
DCID from then until it is accepted; and the registry holds its backend under its DCID while it
waits, and nothing otherwise. -/
structure Sys.ConnInv (clients : ι → Client) (s : Sys ι) (i : ι) : Prop where
  ctx_initial : (s.ctx i).initialPacket = some (clients i).initial
  ctx_backend : (s.progress i).connected = false →
    (s.ctx i).getString "backend" = (clients i).backend
  fresh : (s.progress i).connected = false → s.progress i = .start
  admitted_dcid : (s.progress i).admitted = true →
    ∃ d, parseQUICDCID (clients i).initial = some d ∧ d ≠ ""
  sent_admitted : (s.progress i).sent = true → (s.progress i).admitted = true
  unsent : (s.progress i).sent = false → s.term.tracker.load (clients i).addr = none
  latched : ∀ d, (s.progress i).sent = true → (s.progress i).accepted = false →
    parseQUICDCID (clients i).initial = some d → s.term.tracker.load (clients i).addr = some d
  registry : ∀ d, parseQUICDCID (clients i).initial = some d → d ≠ "" →
    s.term.backends.load d = if (s.progress i).waiting then some (clients i).backend else none

/-- The invariant of the system: every connection's. -/
def Sys.Inv (clients : ι → Client) (s : Sys ι) : Prop := ∀ i, s.ConnInv clients i

theorem Sys.inv_init (internalAddr : String) : (Sys.init clients internalAddr).Inv clients :=
  fun _ => {
    ctx_initial := rfl
    ctx_backend := fun _ => by simp [Sys.init, Client.context, Context.getString]
    fresh := fun _ => rfl
    admitted_dcid := fun h => by cases h
    sent_admitted := fun h => by cases h
    unsent := fun _ => rfl
    latched := fun _ h => by cases h
    registry := fun _ _ _ => by simp [Sys.init, Progress.waiting, Progress.start] }

/-- The FRAME lemma: a connection whose context, progress, tracker entry and registry entry a
step left alone keeps its invariant. -/
theorem Sys.ConnInv.frame {s s' : Sys ι} {i : ι} (hI : s.ConnInv clients i)
    (hc : s'.ctx i = s.ctx i) (hp : s'.progress i = s.progress i)
    (ht : s'.term.tracker.load (clients i).addr = s.term.tracker.load (clients i).addr)
    (hb : ∀ d, parseQUICDCID (clients i).initial = some d → d ≠ "" →
      s'.term.backends.load d = s.term.backends.load d) : s'.ConnInv clients i where
  ctx_initial := hc ▸ hI.ctx_initial
  ctx_backend := hc ▸ hp ▸ hI.ctx_backend
  fresh := hp ▸ hI.fresh
  admitted_dcid := hp ▸ hI.admitted_dcid
  sent_admitted := hp ▸ hI.sent_admitted
  unsent := ht ▸ hp ▸ hI.unsent
  latched := ht ▸ hp ▸ hI.latched
  registry d hd hne := (hb d hd hne).trans (hp ▸ hI.registry d hd hne)

/-- An admitted connection has been connected. -/
theorem Sys.ConnInv.connected {s : Sys ι} {i : ι} (hI : s.ConnInv clients i)
    (ha : (s.progress i).admitted = true) : (s.progress i).connected = true := by
  by_contra hc
  rw [hI.fresh (by simpa using hc)] at ha
  cases ha

/-- A connection whose Initial reached the tracker and that is not yet accepted finds its own
DCID latched at its address. -/
theorem Sys.ConnInv.getDCID_latched {s : Sys ι} {i : ι} {d : String} (hI : s.ConnInv clients i)
    (hs : (s.progress i).sent = true) (hacc : (s.progress i).accepted = false)
    (hd : parseQUICDCID (clients i).initial = some d) :
    getDCID s.term.tracker (clients i).addr = d := by
  simp [getDCID, hI.latched d hs hacc hd]

variable [DecidableEq ι] {s s' : Sys ι} {o : Output} {j : ι}

section Preservation

variable (hAddr : ∀ i j, (clients i).addr = (clients j).addr → i = j)
  (hDcid : ∀ i j d, parseQUICDCID (clients i).initial = some d →
    parseQUICDCID (clients j).initial = some d → d ≠ "" → i = j)

/-- A connection's progress moves only with its own steps. -/
theorem step_progress_other {e : Event ι} {i : ι} (h : step clients s e = some (s', o))
    (hi : i ≠ e.conn) : s'.progress i = s.progress i := by
  cases e with
  | onConnect j =>
    obtain ⟨-, d, -, ⟨-, -, rfl⟩ | rfl⟩ := step_onConnect h <;> exact Function.update_noteq hi _ _
  | datagram j p =>
    obtain ⟨-, -, -, -, -, -, hp, -⟩ := step_datagram h
    rw [hp]; exact Function.update_noteq hi _ _
  | handle j =>
    obtain ⟨-, -, -, hp, -⟩ := step_handle h
    rw [hp]; exact Function.update_noteq hi _ _
  | onDisconnect j =>
    obtain ⟨-, -, -, hp, -⟩ := step_onDisconnect h
    rw [hp]; exact Function.update_noteq hi _ _

include hDcid in
theorem Sys.Inv.onConnect (hI : s.Inv clients) (h : step clients s (.onConnect j) = some (s', o)) :
    s'.Inv clients := by
  obtain ⟨hc, d, hd, hcase⟩ := step_onConnect h
  have hIj := hI j
  rw [hIj.ctx_initial, Option.getD_some] at hd
  have hpj := hIj.fresh hc
  intro i
  by_cases hij : i = j
  · subst hij
    rcases hcase with ⟨hb, hdne, rfl⟩ | rfl
    · -- it continues: admitted, and its backend registered under its DCID
      rw [hIj.ctx_backend hc] at hb ⊢
      exact
        { ctx_initial := by simp [Context.set, hIj.ctx_initial]
          ctx_backend := by simp
          fresh := by simp
          admitted_dcid := fun _ => ⟨d, hd, hdne⟩
          sent_admitted := by simp [hpj, Progress.start]
          unsent := fun _ => hIj.unsent (by rw [hpj]; rfl)
          latched := by simp [hpj, Progress.start]
          registry := fun d' hd' _ => by
            obtain rfl : d' = d := Option.some.inj (hd'.symm.trans hd)
            simp [hpj, Progress.start, Progress.waiting] }
    · -- it drops: connected, and nothing else changes
      exact
        { ctx_initial := by simp [hIj.ctx_initial]
          ctx_backend := by simp
          fresh := by simp
          admitted_dcid := by simp
          sent_admitted := by simp [hpj, Progress.start]
          unsent := fun _ => hIj.unsent (by rw [hpj]; rfl)
          latched := by simp [hpj, Progress.start]
          registry := fun d' hd' hne' => by
            rw [hIj.registry d' hd' hne', hpj]
            simp [Progress.start, Progress.waiting] }
  · rcases hcase with ⟨hb, hdne, rfl⟩ | rfl
    · refine (hI i).frame (Function.update_noteq hij _ _) (Function.update_noteq hij _ _) rfl
        fun d' hd' hne' => ?_
      have : d' ≠ d := fun hdd => hij (hDcid i j d' hd' (hdd ▸ hd) hne')
      simp [this]
    · exact (hI i).frame (Function.update_noteq hij _ _) (Function.update_noteq hij _ _) rfl
        fun _ _ _ => rfl

include hAddr in
theorem Sys.Inv.datagram {p : List UInt8} (hI : s.Inv clients)
    (h : step clients s (.datagram j p) = some (s', o)) : s'.Inv clients := by
  obtain ⟨ha, hsp, d, hd, hb, hc, hp, ht⟩ := step_datagram h
  intro i
  by_cases hij : i = j
  · subst hij
    have hIi := hI i
    have hconn := hIi.connected ha
    obtain ⟨di, hdi, hdine⟩ := hIi.admitted_dcid ha
    have hlatch : (s.progress i).accepted = false →
        s'.term.tracker.load (clients i).addr = some di := by
      intro hacc
      rw [ht]
      cases hs : (s.progress i).sent
      · -- the Initial arrives: the latch is set to its DCID
        have hpi : p = (clients i).initial := by simpa [hs] using hsp
        subst hpi
        obtain rfl : d = di := Option.some.inj (hd.symm.trans hdi)
        simp [hIi.unsent hs, hdine]
      · -- a later datagram: the latch stays
        simp [hIi.latched di hs hacc hdi]
    exact
      { ctx_initial := by rw [hc]; exact hIi.ctx_initial
        ctx_backend := by simp [hp, hconn]
        fresh := by simp [hp, hconn]
        admitted_dcid := by simpa [hp] using hIi.admitted_dcid
        sent_admitted := by simp [hp, ha]
        unsent := by simp [hp]
        latched := fun d' _ hacc hd' => by
          obtain rfl : d' = di := Option.some.inj (hd'.symm.trans hdi)
          exact hlatch (by simpa [hp] using hacc)
        registry := fun d' hd' hne' => by
          rw [hb, hIi.registry d' hd' hne', hp]; simp [Progress.waiting] }
  · refine (hI i).frame (by rw [hc]) (by rw [hp]; exact Function.update_noteq hij _ _) ?_
      fun d' _ _ => by rw [hb]
    rw [ht, if_neg fun hx => hij (hAddr i j hx.1)]

include hAddr hDcid in
theorem Sys.Inv.handle (hI : s.Inv clients) (h : step clients s (.handle j) = some (s', o)) :
    s'.Inv clients := by
  obtain ⟨hs, hacc, hc, hp, hterm⟩ := step_handle h
  have hIj := hI j
  obtain ⟨dj, hdj, hdjne⟩ := hIj.admitted_dcid (hIj.sent_admitted hs)
  have hget := hIj.getDCID_latched hs hacc hdj
  -- what the step did to the two maps
  have hmaps := handleConnection_maps s.term (clients j).addr (by rw [hget]; exact hdjne)
  rw [← show s'.term = (s.term.handleConnection (clients j).addr).1 from congrArg Prod.fst hterm,
    hget] at hmaps
  intro i
  by_cases hij : i = j
  · subst hij
    have hconn := hIj.connected (hIj.sent_admitted hs)
    exact
      { ctx_initial := by rw [hc]; exact hIj.ctx_initial
        ctx_backend := by simp [hp, hconn]
        fresh := by simp [hp, hconn]
        admitted_dcid := by simpa [hp] using hIj.admitted_dcid
        sent_admitted := by simpa [hp] using hIj.sent_admitted
        unsent := by simp [hp, hs]
        latched := by simp [hp]
        registry := fun d hd _ => by
          obtain rfl : d = dj := Option.some.inj (hd.symm.trans hdj)
          simp [hmaps.2, hp, Progress.waiting] }
  · refine (hI i).frame (by rw [hc]) (by rw [hp]; exact Function.update_noteq hij _ _)
      (by rw [hmaps.1, StrMap.load_delete, if_neg fun hx => hij (hAddr i j hx)])
      fun d hd hne => ?_
    rw [hmaps.2, if_neg fun (hdd : d = dj) => hij (hDcid i j d hd (hdd ▸ hdj) hne)]

include hDcid in
theorem Sys.Inv.onDisconnect (hI : s.Inv clients)
    (h : step clients s (.onDisconnect j) = some (s', o)) : s'.Inv clients := by
  obtain ⟨hconn, -, hc, hp, ht, hb⟩ := step_onDisconnect h
  have hIj := hI j
  intro i
  by_cases hij : i = j
  · subst hij
    exact
      { ctx_initial := by rw [hc]; exact hIj.ctx_initial
        ctx_backend := by simp [hp, hconn]
        fresh := by simp [hp, hconn]
        admitted_dcid := by simpa [hp] using hIj.admitted_dcid
        sent_admitted := by simpa [hp] using hIj.sent_admitted
        unsent := by simpa [hp, ht] using hIj.unsent
        latched := by simpa [hp, ht] using hIj.latched
        registry := fun d hd hne => by
          rw [hb, if_pos ⟨_, hIj.ctx_initial, hd, hne⟩]
          simp [hp, Progress.waiting] }
  · refine (hI i).frame (by rw [hc]) (by rw [hp]; exact Function.update_noteq hij _ _) (by rw [ht])
      fun d hd hne => ?_
    rw [hb, if_neg]
    rintro ⟨q, hq, hdq, -⟩
    rw [hIj.ctx_initial, Option.some.injEq] at hq
    subst hq
    exact hij (hDcid i j d hd hdq hne)

include hAddr hDcid in
/-- The STEP LEMMA: every enabled step keeps the invariant. -/
theorem Sys.inv_step (hI : s.Inv clients) {e : Event ι} (h : step clients s e = some (s', o)) :
    s'.Inv clients := by
  cases e with
  | onConnect j => exact hI.onConnect hDcid h
  | datagram j p => exact hI.datagram hAddr h
  | handle j => exact hI.handle hAddr hDcid h
  | onDisconnect j => exact hI.onDisconnect hDcid h

include hAddr hDcid in
/-- The RUN LEMMA: every state a run reaches keeps the invariant. -/
theorem Sys.inv_run : ∀ (es : List (Event ι)) {s s' : Sys ι} {os : List Output},
    s.Inv clients → run clients s es = some (s', os) → s'.Inv clients :=
  run_preserves (Sys.Inv clients) fun hI h => Sys.inv_step hAddr hDcid hI h

/-! ## Isolation -/

/-- Every `handleConnection` that dials, dials its own connection's backend: the tracker hands
it its own DCID, and the registry holds its own backend there. -/
theorem Sys.Inv.handle_dials_own_backend (hI : s.Inv clients) {b : String}
    (h : step clients s (.handle j) = some (s', .outcome (.dial b))) : b = (clients j).backend := by
  obtain ⟨hs, hacc, -, -, hterm⟩ := step_handle h
  have hIj := hI j
  obtain ⟨dj, hdj, hdjne⟩ := hIj.admitted_dcid (hIj.sent_admitted hs)
  rcases handleConnection_spec s.term (clients j).addr with ⟨-, hh⟩ | ⟨-, -, hh⟩ | ⟨b', -, hb', hh⟩
  · simp [hh] at hterm
  · simp [hh] at hterm
  · simp only [hh, Prod.map, Prod.mk.injEq, Output.outcome.injEq, Outcome.dial.injEq] at hterm
    obtain ⟨-, rfl⟩ := hterm
    rw [hIj.getDCID_latched hs hacc hdj, hIj.registry dj hdj hdjne] at hb'
    split at hb'
    · exact (Option.some.inj hb').symm
    · cases hb'

include hAddr hDcid in
/-- No step of another connection touches the registry entry of a connection that waits: the
entry holds that connection's backend before the step and after it. -/
theorem Sys.Inv.registry_isolated (hI : s.Inv clients) {e : Event ι} {i : ι} {d : String}
    (hd : parseQUICDCID (clients i).initial = some d) (hne : d ≠ "")
    (hw : (s.progress i).waiting = true) (hi : e.conn ≠ i) (h : step clients s e = some (s', o)) :
    s.term.backends.load d = some (clients i).backend ∧
      s'.term.backends.load d = some (clients i).backend := by
  have hw' : (s'.progress i).waiting = true := by rw [step_progress_other h (Ne.symm hi), hw]
  exact ⟨by rw [(hI i).registry d hd hne, if_pos hw],
    by rw [((Sys.inv_step hAddr hDcid hI h) i).registry d hd hne, if_pos hw']⟩

/-- Isolation in a state: a `handleConnection` that dials, dials its own connection's backend,
and a step of another connection leaves a waiting connection's registry entry holding its
backend. -/
def Sys.Isolated (clients : ι → Client) (s : Sys ι) : Prop :=
  (∀ i s' b, step clients s (.handle i) = some (s', .outcome (.dial b)) →
    b = (clients i).backend) ∧
  ∀ i d e s' o, parseQUICDCID (clients i).initial = some d → d ≠ "" →
    (s.progress i).waiting = true → Event.conn e ≠ i → step clients s e = some (s', o) →
    s.term.backends.load d = some (clients i).backend ∧
      s'.term.backends.load d = some (clients i).backend

include hAddr hDcid in
/-- Every state a run of the terminator reaches is isolated, when the connections' addresses
and their Initial DCIDs are pairwise distinct. -/
theorem correlation_isolated (internalAddr : String) (es : List (Event ι)) (s : Sys ι)
    (os : List Output) (hrun : run clients (Sys.init clients internalAddr) es = some (s, os)) :
    s.Isolated clients :=
  have hI := Sys.inv_run hAddr hDcid es (Sys.inv_init internalAddr) hrun
  ⟨fun _ _ _ h => hI.handle_dials_own_backend h,
    fun _ _ _ _ _ hd hne hw hi h => hI.registry_isolated hAddr hDcid hd hne hw hi h⟩

end Preservation

end Invariant

/-! ## Sample connections -/

/-- An Initial packet's first bytes: a long header, version 1, the DCID `ab cd`. -/
def initialAB : List UInt8 := [0xC0, 0, 0, 0, 1, 2, 0xAB, 0xCD]

/-- An Initial packet's first bytes with the DCID `ef 01`. -/
def initialEF : List UInt8 := [0xC0, 0, 0, 0, 1, 2, 0xEF, 0x01]

/-- Two connections from distinct addresses with distinct Initial DCIDs. -/
def distinctClients : Bool → Client
  | false => ⟨"127.0.0.1:40001", initialAB, "backend-x:5520"⟩
  | true => ⟨"127.0.0.1:40002", initialEF, "backend-y:5520"⟩

theorem distinctClients_addr_injective :
    ∀ i j, (distinctClients i).addr = (distinctClients j).addr → i = j := by
  decide

theorem distinctClients_dcid_injective : ∀ i j d, parseQUICDCID (distinctClients i).initial = some d →
    parseQUICDCID (distinctClients j).initial = some d → d ≠ "" → i = j := by
  have hAB : parseQUICDCID initialAB = some "abcd" := by decide
  have hEF : parseQUICDCID initialEF = some "ef01" := by decide
  intro i j d hi hj _
  cases i <;> cases j <;> simp only [distinctClients, hAB, hEF, Option.some.injEq] at hi hj <;>
    first | rfl | exact absurd (hi.trans hj.symm) (by decide)

theorem correlation_isolated_distinct :
    ∃ s os, run distinctClients (Sys.init distinctClients "127.0.0.1:5521")
      [.onConnect false, .onConnect true, .datagram true initialEF, .datagram false initialAB] =
        some (s, os) ∧ s.Isolated distinctClients := by
  obtain ⟨⟨s, os⟩, hrun⟩ := Option.isSome_iff_exists.mp (by decide :
    (run distinctClients (Sys.init distinctClients "127.0.0.1:5521")
      [.onConnect false, .onConnect true, .datagram true initialEF, .datagram false initialAB]).isSome)
  exact ⟨s, os, hrun, correlation_isolated distinctClients_addr_injective
    distinctClients_dcid_injective _ _ s os hrun⟩

/-! ## Nothing leaks from the registry -/

section Registry

variable {ι : Type} [DecidableEq ι] {clients : ι → Client} {s s' : Sys ι} {o : Output}

/-- Every key of the registry is some connection's Initial DCID, and not empty. -/
def Sys.RegistryKeys (clients : ι → Client) (s : Sys ι) : Prop :=
  ∀ d, s.term.backends.load d ≠ none → ∃ i, parseQUICDCID (clients i).initial = some d ∧ d ≠ ""

omit [DecidableEq ι] in
theorem Sys.registryKeys_init (internalAddr : String) :
    (Sys.init clients internalAddr).RegistryKeys clients :=
  fun _ h => absurd rfl h

/-- Only `OnConnect` adds to the registry, and only under its own connection's DCID. -/
theorem Sys.RegistryKeys.preserved (hI : s.Inv clients) (hK : s.RegistryKeys clients)
    {e : Event ι} (h : step clients s e = some (s', o)) : s'.RegistryKeys clients := by
  intro d hd
  cases e with
  | onConnect j =>
    obtain ⟨-, dj, hdj, ⟨-, hdjne, rfl⟩ | rfl⟩ := step_onConnect h
    · by_cases hdd : d = dj
      · subst hdd
        rw [(hI j).ctx_initial, Option.getD_some] at hdj
        exact ⟨j, hdj, hdjne⟩
      · exact hK d (by simpa [hdd] using hd)
    · exact hK d hd
  | datagram j p =>
    obtain ⟨-, -, -, -, hb, -⟩ := step_datagram h
    exact hK d (by rwa [hb] at hd)
  | handle j =>
    obtain ⟨-, -, -, -, hterm⟩ := step_handle h
    rw [← show (s.term.handleConnection (clients j).addr).1 = s'.term from
      (congrArg Prod.fst hterm).symm] at hd
    exact hK d (handleConnection_backends_le s.term _ d hd)
  | onDisconnect j =>
    obtain ⟨-, -, -, -, -, hb⟩ := step_onDisconnect h
    rw [hb] at hd
    split at hd
    · exact absurd rfl hd
    · exact hK d hd

variable (hAddr : ∀ i j, (clients i).addr = (clients j).addr → i = j)
  (hDcid : ∀ i j d, parseQUICDCID (clients i).initial = some d →
    parseQUICDCID (clients j).initial = some d → d ≠ "" → i = j)

include hAddr hDcid in
/-- In every state a run of the terminator reaches, the registry holds EXACTLY the backends of
the connections that wait, under their DCIDs: an entry lives from its connection's `OnConnect`
to its `handleConnection` or `OnDisconnect`, and no entry is anyone else's. So once no
connection waits, the registry is empty. -/
theorem registry_exact (internalAddr : String) (es : List (Event ι)) (s : Sys ι)
    (os : List Output) (hrun : run clients (Sys.init clients internalAddr) es = some (s, os))
    (d b : String) :
    s.term.backends.load d = some b ↔ ∃ i, parseQUICDCID (clients i).initial = some d ∧ d ≠ "" ∧
      (s.progress i).waiting = true ∧ b = (clients i).backend := by
  obtain ⟨hI, hK⟩ := run_preserves (fun s => s.Inv clients ∧ s.RegistryKeys clients)
    (fun hP h => ⟨Sys.inv_step hAddr hDcid hP.1 h, hP.2.preserved hP.1 h⟩) es
    ⟨Sys.inv_init internalAddr, Sys.registryKeys_init internalAddr⟩ hrun
  constructor
  · intro hb
    obtain ⟨i, hd, hne⟩ := hK d (by rw [hb]; exact Option.some_ne_none _)
    rw [(hI i).registry d hd hne] at hb
    split at hb
    · exact ⟨i, hd, hne, ‹_›, (Option.some.inj hb).symm⟩
    · cases hb
  · rintro ⟨i, hd, hne, hw, rfl⟩
    rw [(hI i).registry d hd hne, if_pos hw]

include hAddr hDcid in
/-- WHAT THE INTERNAL LISTENER'S ACCEPT DOES, in every state a run reaches: for a connection
whose Initial reached the tracker and that is not yet accepted, `handleConnection` dials that
connection's own backend; or, when the connection already disconnected, closes it with
"no backend". It never finds no DCID mapping. -/
theorem handle_outcome (internalAddr : String) (es : List (Event ι)) (s : Sys ι)
    (os : List Output) (hrun : run clients (Sys.init clients internalAddr) es = some (s, os))
    (j : ι) (hs : (s.progress j).sent = true) (hacc : (s.progress j).accepted = false) :
    ∃ s', step clients s (.handle j) = some (s', .outcome
      (if (s.progress j).ended then .close 0x01 "no backend" else .dial (clients j).backend)) := by
  have hIj := Sys.inv_run hAddr hDcid es (Sys.inv_init internalAddr) hrun j
  have had := hIj.sent_admitted hs
  obtain ⟨dj, hdj, hdjne⟩ := hIj.admitted_dcid had
  have hget := hIj.getDCID_latched hs hacc hdj
  have hreg := hIj.registry dj hdj hdjne
  rw [step, if_pos ⟨hs, by simp [hacc]⟩]
  rcases handleConnection_spec s.term (clients j).addr with ⟨h0, -⟩ | ⟨-, hnone, hh⟩ | ⟨b, -, hb, hh⟩
  · exact absurd (hget ▸ h0) hdjne
  · -- no backend under its DCID: it is admitted and not accepted, so no longer waiting means ended
    have hend : (s.progress j).ended = true := by
      simpa [hget, hreg, Progress.waiting, had, hacc] using hnone
    rw [hh, if_pos hend]
    exact ⟨_, rfl⟩
  · have hend : (s.progress j).ended = false ∧ (clients j).backend = b := by
      simpa [hget, hreg, Progress.waiting, had, hacc] using hb
    rw [hh, if_neg (by simp [hend.1]), hend.2]
    exact ⟨_, rfl⟩

end Registry

/-- One connection accepted, the other ended: nothing is left in the registry. -/
theorem registry_exact_distinct :
    ∃ s os, run distinctClients (Sys.init distinctClients "127.0.0.1:5521")
      [.onConnect false, .onConnect true, .datagram true initialEF, .handle true,
        .onDisconnect false] = some (s, os) ∧
    ∀ d b, (s.term.backends.load d = some b ↔ ∃ i,
      parseQUICDCID (distinctClients i).initial = some d ∧ d ≠ "" ∧
        (s.progress i).waiting = true ∧ b = (distinctClients i).backend) := by
  obtain ⟨⟨s, os⟩, hrun⟩ := Option.isSome_iff_exists.mp (by decide :
    (run distinctClients (Sys.init distinctClients "127.0.0.1:5521")
      [.onConnect false, .onConnect true, .datagram true initialEF, .handle true,
        .onDisconnect false]).isSome)
  exact ⟨s, os, hrun,
    registry_exact distinctClients_addr_injective distinctClients_dcid_injective _ _ s os hrun⟩

/-- The first connection's Initial reached the tracker: the listener's accept dials its backend. -/
theorem handle_outcome_dial :
    ∃ s os, run distinctClients (Sys.init distinctClients "127.0.0.1:5521")
      [.onConnect false, .onConnect true, .datagram false initialAB] = some (s, os) ∧
    (s.progress false).sent = true ∧ (s.progress false).accepted = false ∧
    ∃ s', step distinctClients s (.handle false) = some (s', .outcome
      (if (s.progress false).ended then .close 0x01 "no backend"
        else .dial (distinctClients false).backend)) := by
  have hcalc : (run distinctClients (Sys.init distinctClients "127.0.0.1:5521")
      [.onConnect false, .onConnect true, .datagram false initialAB]).map
        (fun r => ((r.1.progress false).sent, (r.1.progress false).accepted)) = some (true, false) := by
    decide
  obtain ⟨⟨s, os⟩, hrun, hpair⟩ := Option.map_eq_some'.mp hcalc
  obtain ⟨hsent, hacc⟩ := Prod.mk.inj hpair
  exact ⟨s, os, hrun, hsent, hacc, handle_outcome distinctClients_addr_injective
    distinctClients_dcid_injective _ _ s os hrun false hsent hacc⟩

/-- Two connections from distinct addresses whose Initials carry the same DCID. -/
def sharedDcid : Bool → Client
  | false => ⟨"127.0.0.1:40001", initialAB, "backend-x:5520"⟩
  | true => ⟨"127.0.0.1:40002", initialAB, "backend-y:5520"⟩

/-- TWO CONNECTIONS, ONE DCID: the second connection's `OnConnect` REPLACES the first one's
registry entry before the first is accepted, and the first connection's `handleConnection`
dials the second connection's backend. -/
theorem correlation_shared_dcid :
    (sharedDcid false).addr ≠ (sharedDcid true).addr ∧
    parseQUICDCID initialAB = some "abcd" ∧
    (sharedDcid false).backend ≠ (sharedDcid true).backend ∧
    (run sharedDcid (Sys.init sharedDcid "127.0.0.1:5521") [.onConnect false, .onConnect true]).map
      (fun r => r.1.term.backends.load "abcd") = some (some (sharedDcid true).backend) ∧
    (run sharedDcid (Sys.init sharedDcid "127.0.0.1:5521")
        [.onConnect false, .onConnect true, .datagram false initialAB, .handle false]).map
      Prod.snd = some [.result ⟨.continue, none⟩, .result ⟨.continue, none⟩, .quiet,
        .outcome (.dial (sharedDcid true).backend)] := by
  decide

/-! ## The tracker's latch -/

section Latch

variable {ι : Type} [DecidableEq ι] {clients : ι → Client} {s s' : Sys ι} {o : Output}
  {os : List Output} {a d : String}

/-- A latched entry of the tracker outlives every step but the `handleConnection` of a
connection from its address: datagrams never overwrite it, and neither `OnConnect` nor
`OnDisconnect` touches the tracker. -/
theorem step_tracker_latch {e : Event ι} (hl : s.term.tracker.load a = some d)
    (h : step clients s e = some (s', o)) (he : ∀ i, e = .handle i → (clients i).addr ≠ a) :
    s'.term.tracker.load a = some d := by
  cases e with
  | onConnect j =>
    obtain ⟨-, -, -, ⟨-, -, rfl⟩ | rfl⟩ := step_onConnect h <;> exact hl
  | datagram j p =>
    obtain ⟨-, -, d', -, -, -, -, ht⟩ := step_datagram h
    rw [ht, if_neg (by rintro ⟨rfl, hn, -⟩; simp [hl] at hn), hl]
  | handle j =>
    obtain ⟨-, -, -, -, hterm⟩ := step_handle h
    have hja := he j rfl
    rcases handleConnection_spec s.term (clients j).addr with ⟨-, hh⟩ | ⟨-, -, hh⟩ | ⟨b, -, -, hh⟩
    all_goals
      simp only [hh, Prod.map, Prod.mk.injEq, id] at hterm
      simpa [hterm.1, Ne.symm hja] using hl
  | onDisconnect j =>
    obtain ⟨-, -, -, -, ht, -⟩ := step_onDisconnect h
    rw [ht, hl]

/-- Over a whole run with no `handleConnection` from its address, a latched entry stays. -/
theorem run_tracker_latch : ∀ (es : List (Event ι)) {s s' : Sys ι} {os : List Output},
    s.term.tracker.load a = some d → run clients s es = some (s', os) →
    (∀ i, Event.handle i ∈ es → (clients i).addr ≠ a) → s'.term.tracker.load a = some d
  | [], _, _, _, hl, h, _ => by cases h; exact hl
  | e :: es, _, _, _, hl, h, he => by
    obtain ⟨_, _, _, h1, h2⟩ := run_cons_some h
    exact run_tracker_latch es (step_tracker_latch hl h1 fun i hi => he i (hi ▸ List.mem_cons_self _ _))
      h2 fun i hi => he i (List.mem_cons_of_mem _ hi)

end Latch

/-- Two connections, one after the other, from the same address. -/
def reusedAddr : Bool → Client
  | false => ⟨"127.0.0.1:40001", initialAB, "backend-x:5520"⟩
  | true => ⟨"127.0.0.1:40001", initialEF, "backend-y:5520"⟩

/-- AN ADDRESS REUSED AFTER A CONNECTION THAT WAS NEVER ACCEPTED: the first connection's Initial
latches `abcd` and it ends without a `handleConnection`; the second connection's Initial
carries `ef01`, but the tracker still hands out `abcd`, whose registry entry is gone, and the
second connection is closed with "no backend". -/
theorem tracker_latch_reused_address :
    parseQUICDCID initialEF = some "ef01" ∧
    (run reusedAddr (Sys.init reusedAddr "127.0.0.1:5521")
        [.onConnect false, .datagram false initialAB, .onDisconnect false,
          .onConnect true, .datagram true initialEF]).map
      (fun r => getDCID r.1.term.tracker "127.0.0.1:40001") = some "abcd" ∧
    (run reusedAddr (Sys.init reusedAddr "127.0.0.1:5521")
        [.onConnect false, .datagram false initialAB, .onDisconnect false,
          .onConnect true, .datagram true initialEF, .handle true]).map Prod.snd =
      some [.result ⟨.continue, none⟩, .quiet, .quiet, .result ⟨.continue, none⟩, .quiet,
        .outcome (.close 0x01 "no backend")] := by
  -- the first connection's Initial latches `abcd`, and no `handleConnection` follows to clear it
  have hlatch : (run reusedAddr (Sys.init reusedAddr "127.0.0.1:5521")
      [.onConnect false, .datagram false initialAB]).map
        (fun r => r.1.term.tracker.load "127.0.0.1:40001") = some (some "abcd") := by decide
  obtain ⟨⟨s, os⟩, hrun⟩ := Option.isSome_iff_exists.mp (by decide :
    (run reusedAddr (Sys.init reusedAddr "127.0.0.1:5521")
      [.onConnect false, .datagram false initialAB, .onDisconnect false,
        .onConnect true, .datagram true initialEF]).isSome)
  obtain ⟨s2, os2, os3, h2, h3⟩ :=
    run_append_some [.onConnect false, .datagram false initialAB] hrun
  rw [h2, Option.map_some'] at hlatch
  have hkept := run_tracker_latch _ (Option.some.inj hlatch) h3 (by simp)
  refine ⟨by decide, ?_, by decide⟩
  rw [hrun, Option.map_some', getDCID, hkept]
  rfl

end HyProxy.Handlers
