import Mathlib.Data.List.Basic

namespace Tun2SocksWinRT

namespace BSocksClient

namespace Lifecycle

/-!
# The events a `BSocksClient` delivers

`BSocksClient_Init` arms a `BConnector`.  When it completes,
`connector_handler` makes the `BConnection`, builds the SOCKS header, creates
the two cipher contexts, starts the up I/O and reports
`BSOCKSCLIENT_EVENT_UP`; a failed connect or `BConnection_Init` reports
`BSOCKSCLIENT_EVENT_ERROR`.  Later the connection's events come to
`connection_handler`, which reports `ERROR_CLOSED` when the server closed the
stream of an up client and `ERROR` otherwise.  The handler must free the
client when it is told of an error (`BSocksClient.h`); the user of the model
does so at once (`handle`).

A client is what it has registered and allocated, and the events its handler
was called with.  The outcome of each allocation is an argument of the step
that makes it.  When every allocation succeeds, the handler sees `[ERROR]`, or
`[UP]` and then at most one `ERROR` or `ERROR_CLOSED`, and `UP` only once the
header, both cipher contexts and the up I/O are there (`Protocol`, kept by
every run: `protocol_run?`).  The failures the code does not check break this
(`unchecked_failures_break_protocol`).
-/

/-- `BSOCKSCLIENT_EVENT_ERROR`, `BSOCKSCLIENT_EVENT_UP` and `BSOCKSCLIENT_EVENT_ERROR_CLOSED`. -/
inductive Event
  | error
  | up
  | errorClosed
  deriving DecidableEq, Repr

/-- `STATE_CONNECTING` and `STATE_UP`. -/
inductive State
  | connecting
  | up
  deriving DecidableEq, Repr

/-- What a `BSocksClient` has registered and allocated, and what its handler was told. -/
structure Client where
  /-- `state`, once `BSocksClient_Init` has set it -/
  state : Option State
  /-- a `BConnector` that will call `connector_handler` -/
  connector : Bool
  /-- a `BConnection` that will call `connection_handler` -/
  connection : Bool
  headerBuffer : Bool
  encryptor : Bool
  decryptor : Bool
  upIo : Bool
  freed : Bool
  /-- the events the handler was called with, in order -/
  delivered : List Event
  deriving DecidableEq, Repr

/-- The memory of a client before `BSocksClient_Init`. -/
def fresh : Client :=
  ⟨none, false, false, false, false, false, false, false, []⟩

/-- `BSocksClient_Free`: whatever was registered or allocated is released. -/
def free (o : Client) : Client :=
  { o with
    connector := false
    connection := false
    headerBuffer := false
    encryptor := false
    decryptor := false
    upIo := false
    freed := true }

/-- The user's handler: it records the event and, on an error, frees the client. -/
def handle (o : Client) (event : Event) : Client :=
  let o := { o with delivered := o.delivered ++ [event] }
  match event with
  | .up => o
  | .error | .errorClosed => free o

/-- `report_error`. -/
def reportError (o : Client) (event : Event) : Client :=
  handle o event

/-- `BSocksClient_Init`: the client, and whether the call returns 1. -/
def init (connectorInit ivAlloc remoteIvAlloc : Bool) : Client × Bool :=
  if connectorInit then
    let o := { fresh with connector := true }
    -- init iv buffer
    if !ivAlloc then
      (o, false)
    else if !remoteIvAlloc then
      (o, false)
    else
      ({ o with state := some .connecting }, true)
  else
    (fresh, false)

/-- `build_header`: `reserve_buffer` for the header, which reports an error when it fails. -/
def buildHeader (o : Client) (headerAlloc : Bool) : Client :=
  if headerAlloc then { o with headerBuffer := true } else reportError o .error

/-- `connector_handler`; `none` when its `ASSERT` fails. -/
def connectorHandler
    (o : Client)
    (isError connectionInit headerAlloc encryptorNew decryptorNew : Bool) :
    Option Client :=
  if o.state = some .connecting then
    -- the connector has completed and will not call again
    let o := { o with connector := false }
    if isError then
      some (reportError o .error)
    else if !connectionInit then
      some (reportError o .error)
    else
      let o := { o with connection := true }
      -- init buffer: an error reported here does not stop the rest
      let o := buildHeader o headerAlloc
      -- init cryptor (`EVP_CIPHER_CTX_new` is not checked), crypto io and up I/O
      let o := { o with
        encryptor := encryptorNew
        decryptor := decryptorNew
        upIo := true
        state := some .up }
      some (handle o .up)
  else
    none

/-- `connection_handler`; `none` when its `ASSERT` fails. -/
def connectionHandler (o : Client) (recvClosed : Bool) : Option Client :=
  if o.state ≠ some .connecting then
    if o.state = some .up ∧ recvClosed then
      some (reportError o .errorClosed)
    else
      some (reportError o .error)
  else
    none

/-- What the reactor can do to a client: complete its connector, or pass a connection event. -/
inductive Step
  | connectorDone (isError connectionInit headerAlloc encryptorNew decryptorNew : Bool)
  | connectionEvent (recvClosed : Bool)
  deriving DecidableEq, Repr

/-- One step; `none` when what it comes from is not registered, or an `ASSERT` fails. -/
def Step.step? (o : Client) : Step → Option Client
  | .connectorDone isError connectionInit headerAlloc encryptorNew decryptorNew =>
      if o.connector then
        connectorHandler o isError connectionInit headerAlloc encryptorNew decryptorNew
      else
        none
  | .connectionEvent recvClosed =>
      if o.connection then connectionHandler o recvClosed else none

/-- A run of steps; `none` once one is impossible. -/
def run? (o : Client) : List Step → Option Client
  | [] =>
      some o
  | step :: rest =>
      (step.step? o).bind fun o => run? o rest

/-! ## The protocol when every allocation succeeds -/

/-- Every allocation a step makes succeeds. -/
def Step.Succeeds : Step → Prop
  | .connectorDone _ connectionInit headerAlloc encryptorNew decryptorNew =>
      connectionInit = true ∧ headerAlloc = true ∧ encryptorNew = true ∧ decryptorNew = true
  | .connectionEvent _ =>
      True

/--
Where a client stands: connecting, with nothing reported; up, with `UP`
reported after the header, both cipher contexts and the up I/O were made; or
done, with `[ERROR]`, `[UP, ERROR]` or `[UP, ERROR_CLOSED]` reported and
nothing left that could call it.
-/
inductive Protocol : Client → Prop
  | connecting {o : Client}
      (nothing : o.delivered = [])
      (state : o.state = some .connecting)
      (noConnection : o.connection = false) :
      Protocol o
  | up {o : Client}
      (reported : o.delivered = [.up])
      (state : o.state = some .up)
      (connectorDone : o.connector = false)
      (connection : o.connection = true)
      (made : o.headerBuffer = true ∧ o.encryptor = true ∧ o.decryptor = true ∧ o.upIo = true) :
      Protocol o
  | done {o : Client}
      (reported : o.delivered = [.error] ∨ o.delivered = [.up, .error] ∨
        o.delivered = [.up, .errorClosed])
      (connectorDone : o.connector = false)
      (noConnection : o.connection = false)
      (freed : o.freed = true) :
      Protocol o

/-- A successful `BSocksClient_Init` leaves the client connecting. -/
theorem protocol_init : Protocol (init true true true).1 :=
  .connecting rfl rfl rfl

/-- Reporting an error frees the client, with nothing left to call it. -/
theorem reportError_done
    {o : Client}
    {event : Event}
    (isError : event ≠ .up)
    (reported : (o.delivered ++ [event] = [.error]) ∨ o.delivered ++ [event] = [.up, .error] ∨
      o.delivered ++ [event] = [.up, .errorClosed]) :
    Protocol (reportError o event) := by
  cases event with
  | up =>
      exact absurd rfl isError
  | error =>
      exact .done reported rfl rfl rfl
  | errorClosed =>
      exact .done reported rfl rfl rfl

/-- A completed connect whose allocations all succeed reports `ERROR` or `UP`. -/
theorem protocol_connectorHandler
    {o o' : Client}
    (connecting : o.state = some .connecting)
    (nothing : o.delivered = [])
    {isError : Bool}
    (handled : connectorHandler o isError true true true true = some o') :
    Protocol o' := by
  unfold connectorHandler at handled
  rw [if_pos connecting] at handled
  dsimp only at handled
  cases isError with
  | true =>
      cases handled
      exact reportError_done (by decide) (.inl (by rw [nothing]; rfl))
  | false =>
      -- the connection, the header, the cipher contexts and the up I/O are made, then `UP`
      simp only [Bool.false_eq_true, if_false, Bool.not_true, buildHeader, if_true] at handled
      cases handled
      exact .up (by simp [handle, nothing]) rfl rfl rfl ⟨rfl, rfl, rfl, rfl⟩

/-- A connection event on an up client reports `ERROR_CLOSED` or `ERROR`. -/
theorem protocol_connectionHandler
    {o o' : Client}
    (state : o.state = some .up)
    (reported : o.delivered = [.up])
    {recvClosed : Bool}
    (handled : connectionHandler o recvClosed = some o') :
    Protocol o' := by
  unfold connectionHandler at handled
  rw [if_pos (by rw [state]; decide)] at handled
  cases recvClosed with
  | true =>
      rw [if_pos ⟨state, rfl⟩] at handled
      cases handled
      exact reportError_done (by decide) (.inr (.inr (by rw [reported]; rfl)))
  | false =>
      rw [if_neg (fun closed => Bool.false_ne_true closed.2)] at handled
      cases handled
      exact reportError_done (by decide) (.inr (.inl (by rw [reported]; rfl)))

/-- Every step whose allocations succeed keeps the protocol. -/
theorem Protocol.step?
    {o o' : Client}
    (protocol : Protocol o)
    {step : Step}
    (succeeds : step.Succeeds)
    (stepped : step.step? o = some o') :
    Protocol o' := by
  cases protocol with
  | connecting nothing state noConnection =>
      cases step with
      | connectorDone isError connectionInit headerAlloc encryptorNew decryptorNew =>
          obtain ⟨rfl, rfl, rfl, rfl⟩ := succeeds
          simp only [Step.step?] at stepped
          split_ifs at stepped
          exact protocol_connectorHandler state nothing stepped
      | connectionEvent recvClosed =>
          simp [Step.step?, noConnection] at stepped
  | up reported state connectorDone _ _ =>
      cases step with
      | connectorDone =>
          simp [Step.step?, connectorDone] at stepped
      | connectionEvent recvClosed =>
          simp only [Step.step?] at stepped
          split_ifs at stepped
          exact protocol_connectionHandler state reported stepped
  | done _ connectorDone noConnection _ =>
      cases step with
      | connectorDone =>
          simp [Step.step?, connectorDone] at stepped
      | connectionEvent =>
          simp [Step.step?, noConnection] at stepped

/-- Every run whose allocations succeed keeps the protocol. -/
theorem Protocol.run?
    {o o' : Client}
    (protocol : Protocol o)
    {steps : List Step}
    (succeed : ∀ step ∈ steps, step.Succeeds)
    (ran : run? o steps = some o') :
    Protocol o' := by
  induction steps generalizing o with
  | nil =>
      cases ran
      exact protocol
  | cons step rest inductionHypothesis =>
      obtain ⟨next, stepped, ran⟩ := Option.bind_eq_some_iff.mp ran
      exact inductionHypothesis
        (protocol.step? (succeed step List.mem_cons_self) stepped)
        (fun later member => succeed later (List.mem_cons_of_mem step member)) ran

/-- From a successful `BSocksClient_Init`, every run whose allocations succeed follows the protocol. -/
theorem protocol_run?
    {steps : List Step}
    (succeed : ∀ step ∈ steps, step.Succeeds)
    {o : Client}
    (ran : run? (init true true true).1 steps = some o) :
    Protocol o :=
  protocol_init.run? succeed ran

/-! ## The failures the code does not check -/

/--
Three allocation failures break the protocol.  A failed `BAlloc` of
`ss_iv` makes `BSocksClient_Init` return 0 with its connector still armed, and
when that connector completes, `connector_handler` finds no state it expects.
A failed `BRealloc` in `build_header` reports `ERROR`, so the user frees the
client, and `connector_handler` goes on to report `UP` to it.  A failed
`EVP_CIPHER_CTX_new` is not noticed: `UP` is reported with no encryptor.
-/
theorem unchecked_failures_break_protocol :
    init true false true = ({ fresh with connector := true }, false) ∧
      run? (init true false true).1 [.connectorDone true true true true true] = none ∧
      (run? (init true true true).1 [.connectorDone false true false true true]).map
        (fun o => (o.delivered, o.freed)) = some ([.error, .up], true) ∧
      (run? (init true true true).1 [.connectorDone false true true false true]).map
        (fun o => (o.delivered, o.encryptor)) = some ([.up], false) := by
  decide

end Lifecycle

end BSocksClient

end Tun2SocksWinRT
