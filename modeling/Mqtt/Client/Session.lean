import Mqtt.Client.Dispatch

/-!
# The thread of a client

The thread takes turns.  In each it turns to one control, or else does what the
phase of the client calls for, up to the next place where it waits: for a
transport to be opened, for octets to come, for a control or for an interval to
pass.  What it waited for is then handed in, and it is ready for its next turn.
-/

namespace Mqtt.Act

variable {σ : Type}

/-! ## Where the thread waits -/

/-- Asks for a transport to be opened. -/
def dial : Act σ Unit := do
  let config := (← client).config
  close
  note (.dialled config.host config.tcpPort config.connectTimeout)
  goTo (.connecting config)

/-- Starts to read a packet that may take `timeout` milliseconds to begin. -/
def startReader (timeout : UInt32) : Act σ Frame.Reader := do
  let config := (← client).config
  return .start config.maxPacketSize config.commandTimeout.toNat timeout.toNat

/-- Waits for a control, and for the interval if the session is to be opened
again without being asked to. -/
def rest : Act σ Unit := do
  let c ← client
  if c.parked || !c.config.autoReconnect then goTo (.idle none)
  else goTo (.idle (some c.config.reconnectInterval))

variable [Environment σ]

/-! ## Ends of sessions -/

/-- The session ended without being asked to. -/
def lose (reason : DisconnectReason) : Act σ Unit := do
  close
  enter .disconnected
  tell (.disconnected reason)

/-- The thread ends, and nothing of the client is left. -/
def shutDown : Act σ Unit := do
  tell .destroying
  release
  enter .disconnected
  goTo .exited

/-- Does what the application asked for. -/
def obey (control : Control) : Act σ Unit := do
  note (.obeyed control)
  match control with
  | .destroy => shutDown
  | .reconnect => do
    update fun c => { c with parked := false }
    let wasConnected := (← client).phase == .connected
    close
    if wasConnected then tell (.disconnected .userRequested)
    tell .reconnecting
    enter .reconnecting
  | .disconnect notify => do
    update fun c => { c with parked := true }
    if (← client).phase = .connected then
      if notify then let _ ← (transmit Packet.disconnect).run
      close
      enter .disconnected
      tell (.disconnected .userRequested)
    else
      close
      enter .disconnected

/-! ## Opening a session -/

/-- The CONNECT for given settings and will. -/
def connectPacket (config : Config) (will : Option LastWill) : Packet.Connect where
  clientId := config.clientId
  keepAlive := config.keepAlive
  cleanSession := config.cleanSession
  username := config.username
  password := config.password.map Bytes.ofText
  will := will.map (·.toWill)

/-- No session could be opened. -/
def failConnect (status : ConnectStatus) : Act σ Unit := do
  close
  enter .disconnected
  tell (.disconnected (.connectFailed status))

/-- The transport is open, or could not be opened. -/
def dialAnswered (result : Except Transport.Error Unit) : Act σ Unit := do
  match (← client).place, result with
  | .connecting _, .error _ =>
    goTo .running
    failConnect .networkError
  | .connecting config, .ok () =>
    goTo .running
    update fun c => { c with linked := true }
    note .opened
    let will := (← client).will
    match ← (transmitPacket (connectPacket config will).put).run with
    | .error _ => failConnect .sendFailed
    | .ok () => goTo (.greeting (← startReader config.connectTimeout))
  | _, _ => return ()

/-- Asks anew for all that was granted, since the broker has forgotten it. -/
def resubscribe : Act σ Unit := do
  let granted := (← client).subscriptions.granted
  unless granted.isEmpty do
    let reply ← perform tell .thread (.subscribeAll granted)
    note (.renewed granted reply)

/-- The broker accepted the session. -/
def openSession (sessionPresent : Bool) : Act σ Unit := do
  let period := (← client).config.keepAlive.toUInt32 * 1000
  let opened ← now
  update fun c => { c with keepAlive := .fresh opened period, phase := .connected }
  migrate
  match ← scan true with
  | some _ => lose .networkFailure
  | none =>
    tell (.connected sessionPresent)
    unless sessionPresent do resubscribe

/-- What the first packet of the broker says of the session. -/
def greetingStatus (p : Inbound) : Except ConnectStatus Bool :=
  if p.kind = .connAck then
    match Packet.ConnAck.decode p.body with
    | .error _ => .error .protocolError
    | .ok ack =>
      match ConnectStatus.ofReturnCode ack.returnCode with
      | .accepted => .ok ack.sessionPresent
      | refused => .error refused
  else .error .protocolError

/-- The broker sent its first packet. -/
def greeted (p : Inbound) : Act σ Unit := do
  match greetingStatus p with
  | .error status => failConnect status
  | .ok sessionPresent => openSession sessionPresent

/-! ## A session -/

/-- Starts to read a packet of the session. -/
def listen : Act σ Unit := do
  if (← client).linked then
    goTo (.listening (← startReader (← client).config.readTimeout))
  else lose .networkFailure

/-- Keeps the session alive. -/
def beat : Act σ Unit := do
  if (← client).config.keepAlive ≠ 0 then
    let reading ← now
    match ← draw fun c =>
        let (step, keepAlive) := c.keepAlive.poll reading
        (step, { c with keepAlive }) with
    | .quiet => return ()
    | .ping =>
      match ← (transmit Packet.pingReq).run with
      | .ok () => return ()
      | .error e => if e.isFatal then lose .networkFailure
    | .dead => lose .keepAliveTimeout

/-- Looks after what is due. -/
def tend : Act σ Unit := do
  match ← scan false with
  | some _ => lose .networkFailure
  | none => beat

/-- A packet of the session came. -/
def attend (p : Inbound) : Act σ Unit := do
  match ← (dispatch p).run with
  | .ok () => tend
  | .error e => if e.isFatal then lose .networkFailure else tend

/-! ## Reading -/

/-- Reading has ended, with or without a packet. -/
def readEnded : Act σ Unit := do
  goTo .running
  migrate

/-- The transport gave octets, none when the stream has ended, or failed, after
`elapsed` milliseconds. -/
def heard (given : Except Transport.Error Bytes) (elapsed : Nat) : Act σ Unit := do
  match (← client).place with
  | .greeting reader =>
    match reader.receive given elapsed with
    | .more reader => goTo (.greeting reader)
    | .packet p =>
      note (.received p)
      readEnded
      greeted p
    | .nothing =>
      readEnded
      failConnect .timeout
    | .failed reason =>
      readEnded
      failConnect (if reason = .protocolError then .protocolError else .networkError)
  | .listening reader =>
    match reader.receive given elapsed with
    | .more reader => goTo (.listening reader)
    | .packet p =>
      note (.received p)
      readEnded
      attend p
    | .nothing =>
      readEnded
      tend
    | .failed reason =>
      readEnded
      lose reason
  | _ => return ()

/-! ## Between sessions -/

/-- The interval has passed. -/
def intervalPassed : Act σ Unit := do
  match (← client).place with
  | .idle (some _) =>
    goTo .running
    tell .reconnecting
    enter .reconnecting
  | _ => return ()

/-- One turn of the thread. -/
def turn : Act σ Unit := do
  let c ← client
  if c.isRunnable then
    match c.controls.pop?, c.phase with
    | some (control, controls), _ =>
      update fun c => { c with controls, place := .running }
      obey control
    | none, .connected => listen
    | none, .disconnected => rest
    | none, _ => dial

end Mqtt.Act
