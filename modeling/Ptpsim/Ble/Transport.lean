/-
# The host's transports

The executors of the Bluetooth and network rendezvous leave their input and
output to the host, whose failures they see as a `TransportError`.
-/
namespace Ptpsim.Ble

/-- A failure of the BLE transport. -/
inductive TransportError where
  | notConnected
  | notExposed (uuid : String)
  | timeout (detail : String)
  | connectFailed (detail : String)
  | failed (detail : String)
deriving DecidableEq

end Ptpsim.Ble
