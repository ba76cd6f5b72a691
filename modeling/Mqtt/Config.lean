import Mqtt.Error
import Mqtt.Packet.Length

/-!
# Settings

The settings of a client, their defaults, the demands on them, and single
settings as changes to a whole set.
-/

namespace Mqtt

/-- The settings of a client.  Times are in milliseconds unless said otherwise. -/
structure Config where
  host : String := "localhost"
  tcpPort : UInt16 := 1883
  /-- Empty lets the broker choose an identifier. -/
  clientId : String := ""
  username : Option String := none
  password : Option String := none
  /-- Seconds between signs of life; zero asks for none. -/
  keepAlive : UInt16 := 60
  cleanSession : Bool := true
  /-- Whether a lost connection is opened again without being asked to. -/
  autoReconnect : Bool := true
  /-- The time for sending a packet, and for the rest of a packet begun. -/
  commandTimeout : UInt32 := 4000
  /-- The time to wait for a packet before looking after timers. -/
  readTimeout : UInt32 := 100
  /-- The time for opening a transport, and for the broker's greeting. -/
  connectTimeout : UInt32 := 5000
  /-- The wait before a lost connection is opened again. -/
  reconnectInterval : UInt32 := 3000
  /-- The wait for an acknowledgement. -/
  ackTimeout : UInt32 := 3000
  /-- How many pending transactions are worth a warning; zero for none. -/
  pendingWarning : Nat := 64
  /-- How often a packet is sent again before a warning. -/
  retryWarning : UInt32 := 5
  /-- The largest body accepted from the broker, in octets. -/
  maxPacketSize : Nat := 65536
  deriving DecidableEq

namespace Config

/-- The first demand that the settings fail, if they fail any. -/
def validate (c : Config) : Except SettingsFault Unit :=
  if c.host.isEmpty then .error .hostEmpty
  else if c.clientId.utf8ByteSize > 65535 then .error .clientIdTooLong
  else if c.clientId.isEmpty && !c.cleanSession then .error .clientIdMissing
  else if c.password.isSome && c.username.isNone then .error .passwordAlone
  else if c.readTimeout = 0 ∨ c.commandTimeout = 0 then .error .zeroTimeout
  else if c.ackTimeout = 0 then .error .zeroAckTimeout
  else if c.maxPacketSize < 2 ∨ Packet.Length.max < c.maxPacketSize then
    .error .packetSizeOutOfRange
  else .ok ()

/-- The names of the settings. -/
inductive Field where
  | host
  | tcpPort
  | clientId
  | username
  | password
  | keepAlive
  | cleanSession
  | autoReconnect
  | commandTimeout
  | readTimeout
  | connectTimeout
  | reconnectInterval
  | ackTimeout
  | pendingWarning
  | retryWarning
  | maxPacketSize
  deriving DecidableEq

namespace Field

/-- All names, in the order of the settings. -/
def all : List Field :=
  [host, tcpPort, clientId, username, password, keepAlive, cleanSession, autoReconnect,
    commandTimeout, readTimeout, connectTimeout, reconnectInterval, ackTimeout, pendingWarning,
    retryWarning, maxPacketSize]

/-- The written form of a name. -/
def key : Field → String
  | host => "host"
  | tcpPort => "port"
  | clientId => "client_id"
  | username => "username"
  | password => "password"
  | keepAlive => "keep_alive_secs"
  | cleanSession => "clean_session"
  | autoReconnect => "auto_reconnect"
  | commandTimeout => "command_timeout_ms"
  | readTimeout => "read_timeout_ms"
  | connectTimeout => "connect_timeout_ms"
  | reconnectInterval => "reconnect_interval_ms"
  | ackTimeout => "ack_timeout_ms"
  | pendingWarning => "ack_count_warning"
  | retryWarning => "repeat_count_warning"
  | maxPacketSize => "max_packet_size"

/-- The name with a given written form. -/
def ofKey? (key : String) : Option Field :=
  all.find? fun field => field.key == key

end Field

/-- A value for one of the settings. -/
inductive Setting where
  | host (value : String)
  | tcpPort (value : UInt16)
  | clientId (value : String)
  | username (value : Option String)
  | password (value : Option String)
  | keepAlive (seconds : UInt16)
  | cleanSession (value : Bool)
  | autoReconnect (value : Bool)
  | commandTimeout (value : UInt32)
  | readTimeout (value : UInt32)
  | connectTimeout (value : UInt32)
  | reconnectInterval (value : UInt32)
  | ackTimeout (value : UInt32)
  | pendingWarning (count : Nat)
  | retryWarning (count : UInt32)
  | maxPacketSize (size : Nat)
  deriving DecidableEq

/-- The settings with one of them replaced. -/
def set (c : Config) : Setting → Config
  | .host value => { c with host := value }
  | .tcpPort value => { c with tcpPort := value }
  | .clientId value => { c with clientId := value }
  | .username value => { c with username := value }
  | .password value => { c with password := value }
  | .keepAlive seconds => { c with keepAlive := seconds }
  | .cleanSession value => { c with cleanSession := value }
  | .autoReconnect value => { c with autoReconnect := value }
  | .commandTimeout value => { c with commandTimeout := value }
  | .readTimeout value => { c with readTimeout := value }
  | .connectTimeout value => { c with connectTimeout := value }
  | .reconnectInterval value => { c with reconnectInterval := value }
  | .ackTimeout value => { c with ackTimeout := value }
  | .pendingWarning count => { c with pendingWarning := count }
  | .retryWarning count => { c with retryWarning := count }
  | .maxPacketSize size => { c with maxPacketSize := size }

/-- The settings with several replaced, one after the other. -/
def setAll (c : Config) (settings : List Setting) : Config :=
  settings.foldl set c

/-! ## Settings from documents -/

/-- What a document gives of the settings: nothing where it leaves one out. -/
structure Given where
  host : Option String := none
  tcpPort : Option UInt16 := none
  clientId : Option String := none
  username : Option String := none
  password : Option String := none
  keepAlive : Option UInt16 := none
  cleanSession : Option Bool := none
  autoReconnect : Option Bool := none
  commandTimeout : Option UInt32 := none
  readTimeout : Option UInt32 := none
  connectTimeout : Option UInt32 := none
  reconnectInterval : Option UInt32 := none
  ackTimeout : Option UInt32 := none
  pendingWarning : Option Nat := none
  retryWarning : Option UInt32 := none
  maxPacketSize : Option Nat := none
  deriving DecidableEq

/-- What is given once a setting is. -/
def Given.set (g : Given) : Setting → Given
  | .host value => { g with host := some value }
  | .tcpPort value => { g with tcpPort := some value }
  | .clientId value => { g with clientId := some value }
  | .username value => { g with username := value }
  | .password value => { g with password := value }
  | .keepAlive seconds => { g with keepAlive := some seconds }
  | .cleanSession value => { g with cleanSession := some value }
  | .autoReconnect value => { g with autoReconnect := some value }
  | .commandTimeout value => { g with commandTimeout := some value }
  | .readTimeout value => { g with readTimeout := some value }
  | .connectTimeout value => { g with connectTimeout := some value }
  | .reconnectInterval value => { g with reconnectInterval := some value }
  | .ackTimeout value => { g with ackTimeout := some value }
  | .pendingWarning count => { g with pendingWarning := some count }
  | .retryWarning count => { g with retryWarning := some count }
  | .maxPacketSize size => { g with maxPacketSize := some size }

/-- The default settings with those that a document gives. -/
def ofGiven (g : Given) : Config :=
  let c : Config := {}
  { host := g.host.getD c.host
    tcpPort := g.tcpPort.getD c.tcpPort
    clientId := g.clientId.getD c.clientId
    username := g.username
    password := g.password
    keepAlive := g.keepAlive.getD c.keepAlive
    cleanSession := g.cleanSession.getD c.cleanSession
    autoReconnect := g.autoReconnect.getD c.autoReconnect
    commandTimeout := g.commandTimeout.getD c.commandTimeout
    readTimeout := g.readTimeout.getD c.readTimeout
    connectTimeout := g.connectTimeout.getD c.connectTimeout
    reconnectInterval := g.reconnectInterval.getD c.reconnectInterval
    ackTimeout := g.ackTimeout.getD c.ackTimeout
    pendingWarning := g.pendingWarning.getD c.pendingWarning
    retryWarning := g.retryWarning.getD c.retryWarning
    maxPacketSize := g.maxPacketSize.getD c.maxPacketSize }

/-- Reads settings from a document.  What it gives of them is for a reader of JSON to say, which
answers nothing where the document is malformed. -/
def ofJson (reader : String → Option Given) (document : String) :
    Except SettingsFault Config :=
  match reader document with
  | none => .error .malformedText
  | some given =>
    let c := ofGiven given
    match c.validate with
    | .error fault => .error fault
    | .ok () => .ok c

end Config

end Mqtt
