/-!
# State and medium of an endpoint

An endpoint is a remote peer. Its state says how far the connection to it stands, its medium over
what it runs.
-/

namespace PeerTransfer

/-- How far the connection to a peer stands. -/
inductive EndpointState where
  | discovered
  | pending
  | connected
  | sending
  | receiving
  | disconnecting
  | removed
  deriving DecidableEq, Repr

namespace EndpointState

/-- All states, a peer's usual course first. -/
def all : List EndpointState :=
  [discovered, pending, connected, sending, receiving, disconnecting, removed]

def name : EndpointState → String
  | discovered => "Discovered"
  | pending => "Pending"
  | connected => "Connected"
  | sending => "Sending"
  | receiving => "Receiving"
  | disconnecting => "Disconnecting"
  | removed => "Removed"

/-- The peers have accepted each other and can exchange batches. -/
def isConnected : EndpointState → Bool
  | connected | sending | receiving => true
  | _ => false

end EndpointState

/-- What a connection runs over. -/
inductive Medium where
  | unknown
  | bluetooth
  | ble
  | wifiLan
  | wifiHotspot
  | wifiDirect
  | webRtc
  deriving DecidableEq, Repr

namespace Medium

instance : Inhabited Medium := ⟨unknown⟩

/-- Every medium. -/
def all : List Medium := [unknown, bluetooth, ble, wifiLan, wifiHotspot, wifiDirect, webRtc]

def name : Medium → String
  | unknown => "Unknown"
  | bluetooth => "Bluetooth"
  | ble => "Ble"
  | wifiLan => "WifiLan"
  | wifiHotspot => "WifiHotspot"
  | wifiDirect => "WifiDirect"
  | webRtc => "WebRtc"

/-- The text by which a medium is shown. -/
def text : Medium → String
  | unknown => "unknown"
  | bluetooth => "bluetooth"
  | ble => "ble"
  | wifiLan => "wifi-lan"
  | wifiHotspot => "wifi-hotspot"
  | wifiDirect => "wifi-direct"
  | webRtc => "webrtc"

end Medium

end PeerTransfer
