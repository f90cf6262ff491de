import HyProxy.Handlers.Dcid
import HyProxy.Handlers.Chain

/-!
# The terminator's correlation steps

The terminator handler correlates two views of one client connection. The handler chain sees
the client's first Initial packet and the backend the router chose: `OnConnect` stores that
backend in the REGISTRY under the packet's DCID, and redirects the connection to the
terminator's internal listener. The internal listener later accepts a QUIC connection, from an
address the DCID tracker has seen: `handleConnection` reads the DCID the tracker latched for
that address, takes the backend out of the registry, and dials it. `OnDisconnect` removes the
registry entry of a connection that never got that far.

Only what the correlation reads and writes is here: the registry (`backends`), the tracker's
map (`tracker`) and the internal address. The dial itself, the TLS state and the session
bridge are outside: `handleConnection` ends in `Outcome.dial backend` or in a close with its
code and reason. The context and the handlers' results are those of `Chain.lean`.

## What is proved

One spec lemma per step, which the system model (`Correlation.lean`) cites instead of unfolding
the step: `onConnect_spec`, `onDisconnect_spec`, `handleConnection_spec`; and
`handleConnection_maps`, what a `handleConnection` with a latched DCID leaves in the two maps;
and `handleConnection_backends_le`, that it never adds to the registry.
-/

set_option autoImplicit false

namespace HyProxy.Handlers

open Go

/-! ## The terminator -/

/-- The state of `TerminatorHandler` the correlation uses: the registry `backends`
(hex DCID ↦ backend), the tracker's `byAddr` (remote address ↦ hex DCID), and `internalAddr`. -/
structure TerminatorHandler where
  backends : StrMap
  tracker : StrMap
  internalAddr : String

/-- How `handleConnection` ends: `CloseWithError(code, reason)`, or dialing a backend. -/
inductive Outcome
  | close (code : Nat) (reason : String)
  | dial (backend : String)
  deriving DecidableEq

/-- `TerminatorHandler.OnConnect(ctx)`: the handler, the context and the result. -/
def TerminatorHandler.onConnect (h : TerminatorHandler) (ctx : Context) :
    Option (TerminatorHandler × Context × Result) :=
  let backend := ctx.getString "backend"
  if backend = "" then some (h, ctx, ⟨.drop, some "no backend"⟩)
  else do
    let dcid ← parseQUICDCID (ctx.initialPacket.getD [])
    if dcid = "" then some (h, ctx, ⟨.drop, some "no DCID in packet"⟩)
    else
      some ({ h with backends := h.backends.store dcid backend },
        ctx.set "backend" (.str h.internalAddr), ⟨.continue, none⟩)

/-- `TerminatorHandler.OnDisconnect(ctx)`. -/
def TerminatorHandler.onDisconnect (h : TerminatorHandler) (ctx : Context) :
    Option TerminatorHandler :=
  match ctx.initialPacket with
  | none => some h
  | some p => do
    let dcid ← parseQUICDCID p
    if dcid ≠ "" then some { h with backends := h.backends.delete dcid } else some h

/-- `TerminatorHandler.handleConnection(clientConn)` for a connection from `remoteAddr`, up to
the dial. -/
def TerminatorHandler.handleConnection (h : TerminatorHandler) (remoteAddr : String) :
    TerminatorHandler × Outcome :=
  let dcid := getDCID h.tracker remoteAddr
  if dcid = "" then (h, .close 0x01 "no dcid mapping")
  else
    match h.backends.load dcid with
    | none => ({ h with tracker := h.tracker.delete remoteAddr }, .close 0x01 "no backend")
    | some backend =>
      ({ h with tracker := h.tracker.delete remoteAddr, backends := h.backends.delete dcid },
        .dial backend)

/-! ## One spec lemma per step -/

/-- `OnConnect` never panics. It continues exactly when the context holds a backend and the
Initial packet a DCID; it then stores the backend under that DCID and redirects the context to
the internal address. Otherwise it drops, and changes nothing. -/
theorem onConnect_spec (h : TerminatorHandler) (ctx : Context) :
    ∃ d, parseQUICDCID (ctx.initialPacket.getD []) = some d ∧
      ((ctx.getString "backend" ≠ "" ∧ d ≠ "" ∧
        h.onConnect ctx = some ({ h with backends := h.backends.store d (ctx.getString "backend") },
          ctx.set "backend" (.str h.internalAddr), ⟨.continue, none⟩)) ∨
      ∃ e, h.onConnect ctx = some (h, ctx, ⟨.drop, some e⟩)) := by
  obtain ⟨d, hd⟩ := Option.isSome_iff_exists.mp (parseQUICDCID_isSome (ctx.initialPacket.getD []))
  refine ⟨d, hd, ?_⟩
  unfold TerminatorHandler.onConnect
  by_cases hb : ctx.getString "backend" = ""
  · exact .inr ⟨_, if_pos hb⟩
  · rw [if_neg hb, hd, Option.bind_eq_bind, Option.some_bind]
    by_cases hdd : d = ""
    · exact .inr ⟨_, if_pos hdd⟩
    · exact .inl ⟨hb, hdd, if_neg hdd⟩

/-- `OnDisconnect` never panics, and removes at most the registry entry of its Initial packet's
DCID. -/
theorem onDisconnect_spec (h : TerminatorHandler) (ctx : Context) :
    ∃ h', h.onDisconnect ctx = some h' ∧ h'.tracker = h.tracker ∧
      h'.internalAddr = h.internalAddr ∧ ∀ d, h'.backends.load d =
        if ∃ p, ctx.initialPacket = some p ∧ parseQUICDCID p = some d ∧ d ≠ "" then none
        else h.backends.load d := by
  unfold TerminatorHandler.onDisconnect
  cases hp : ctx.initialPacket with
  | none => exact ⟨h, rfl, rfl, rfl, fun d => by simp⟩
  | some p =>
    obtain ⟨e, he⟩ := Option.isSome_iff_exists.mp (parseQUICDCID_isSome p)
    simp only [he, Option.bind_eq_bind, Option.some_bind]
    split
    · rename_i hne
      refine ⟨_, rfl, rfl, rfl, fun d => ?_⟩
      by_cases hde : d = e
      · subst hde; simp [he, hne]
      · simp only [StrMap.load_delete, if_neg hde, Option.some.injEq]
        rw [if_neg (by rintro ⟨_, ⟨⟩, hpd, -⟩; exact hde (Option.some.inj (hpd.symm.trans he)))]
    · rename_i hne
      refine ⟨h, rfl, rfl, rfl, fun d => ?_⟩
      rw [if_neg (by rintro ⟨_, ⟨⟩, hpd, hd⟩; exact hne (Option.some.inj (he.symm.trans hpd) ▸ hd))]

/-- `handleConnection` dials the backend registered under the DCID the tracker latched for the
remote address, and removes both entries; without a latched DCID it closes and changes nothing;
without a registered backend it closes and removes the latch. -/
theorem handleConnection_spec (h : TerminatorHandler) (a : String) :
    (getDCID h.tracker a = "" ∧ h.handleConnection a = (h, .close 0x01 "no dcid mapping")) ∨
    (getDCID h.tracker a ≠ "" ∧ h.backends.load (getDCID h.tracker a) = none ∧
      h.handleConnection a = ({ h with tracker := h.tracker.delete a }, .close 0x01 "no backend")) ∨
    ∃ b, getDCID h.tracker a ≠ "" ∧ h.backends.load (getDCID h.tracker a) = some b ∧
      h.handleConnection a =
        ({ h with
            tracker := h.tracker.delete a
            backends := h.backends.delete (getDCID h.tracker a) }, .dial b) := by
  unfold TerminatorHandler.handleConnection
  by_cases hd : getDCID h.tracker a = ""
  · exact .inl ⟨hd, if_pos hd⟩
  · cases hb : h.backends.load (getDCID h.tracker a) with
    | none => exact .inr (.inl ⟨hd, rfl, by simp only [if_neg hd, hb]⟩)
    | some b => exact .inr (.inr ⟨b, hd, rfl, by simp only [if_neg hd, hb]⟩)

/-- With a DCID latched for the address, `handleConnection` removes the latch and the registry
entry under that DCID, and nothing else. -/
theorem handleConnection_maps (h : TerminatorHandler) (a : String) (hd : getDCID h.tracker a ≠ "") :
    (h.handleConnection a).1.tracker = h.tracker.delete a ∧
      ∀ d, (h.handleConnection a).1.backends.load d =
        if d = getDCID h.tracker a then none else h.backends.load d := by
  rcases handleConnection_spec h a with ⟨hd0, -⟩ | ⟨-, hnone, hh⟩ | ⟨b, -, -, hh⟩
  · exact absurd hd0 hd
  · -- no backend: the registry had no entry there
    rw [hh]
    refine ⟨rfl, fun d => ?_⟩
    by_cases hdd : d = getDCID h.tracker a
    · rw [if_pos hdd, hdd]; exact hnone
    · rw [if_neg hdd]
  · rw [hh]
    exact ⟨rfl, fun _ => rfl⟩

/-- `handleConnection` only ever removes from the registry. -/
theorem handleConnection_backends_le (h : TerminatorHandler) (a d : String)
    (hd : (h.handleConnection a).1.backends.load d ≠ none) : h.backends.load d ≠ none := by
  rcases handleConnection_spec h a with ⟨-, hh⟩ | ⟨-, -, hh⟩ | ⟨b, -, -, hh⟩ <;> rw [hh] at hd
  · exact hd
  · exact hd
  · rw [StrMap.load_delete] at hd
    split at hd
    · exact absurd rfl hd
    · exact hd

end HyProxy.Handlers
