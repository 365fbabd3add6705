/-
# Standard PTP code registries

The operation, response, object-format and datatype codes of `ptp-core`, and
the PTP/IP packet-type tags. Vendor codes are manifest data.
-/
import Mathlib.Data.List.Basic

namespace Ptpsim.Core

/-- PTP/IP packet types of the standard TCP framing. -/
inductive PacketType where
  | initCommandRequest
  | initCommandAck
  | initEventRequest
  | initEventAck
  | initFail
  | operationRequest
  | operationResponse
  | event
  | startData
  | data
  | cancel
  | endData
  | probeRequest
  | probeResponse
deriving DecidableEq, Repr

namespace PacketType

def toU32 : PacketType → UInt32
  | initCommandRequest => 1
  | initCommandAck => 2
  | initEventRequest => 3
  | initEventAck => 4
  | initFail => 5
  | operationRequest => 6
  | operationResponse => 7
  | event => 8
  | startData => 9
  | data => 10
  | cancel => 11
  | endData => 12
  | probeRequest => 13
  | probeResponse => 14

def fromU32 (v : UInt32) : Option PacketType :=
  if v = 1 then some initCommandRequest
  else if v = 2 then some initCommandAck
  else if v = 3 then some initEventRequest
  else if v = 4 then some initEventAck
  else if v = 5 then some initFail
  else if v = 6 then some operationRequest
  else if v = 7 then some operationResponse
  else if v = 8 then some event
  else if v = 9 then some startData
  else if v = 10 then some data
  else if v = 11 then some cancel
  else if v = 12 then some endData
  else if v = 13 then some probeRequest
  else if v = 14 then some probeResponse
  else none

theorem fromU32_toU32 (t : PacketType) : fromU32 t.toU32 = some t := by
  cases t <;> rfl

end PacketType

/-! ### Operation codes -/

namespace Op

def getDeviceInfo : UInt16 := 0x1001
def openSession : UInt16 := 0x1002
def closeSession : UInt16 := 0x1003
def getStorageIds : UInt16 := 0x1004
def getObjectHandles : UInt16 := 0x1007
def getObjectInfo : UInt16 := 0x1008
def getObject : UInt16 := 0x1009
def getThumb : UInt16 := 0x100a
def deleteObject : UInt16 := 0x100b
def initiateCapture : UInt16 := 0x100e
def getDevicePropDesc : UInt16 := 0x1014
def getDevicePropValue : UInt16 := 0x1015
def setDevicePropValue : UInt16 := 0x1016
def getPartialObject : UInt16 := 0x101b
def initiateOpenCapture : UInt16 := 0x101c
def terminateOpenCapture : UInt16 := 0x1018

end Op

/-! ### Response codes -/

namespace Resp

def ok : UInt16 := 0x2001
def generalError : UInt16 := 0x2002
def sessionNotOpen : UInt16 := 0x2003
def operationNotSupported : UInt16 := 0x2005
def invalidObjectHandle : UInt16 := 0x2009
def devicePropNotSupported : UInt16 := 0x200a
def accessDenied : UInt16 := 0x200f
def deviceBusy : UInt16 := 0x2019
def invalidParameter : UInt16 := 0x201d
def sessionAlreadyOpen : UInt16 := 0x201e

end Resp

/-! ### Object formats and datatypes -/

namespace Format

def undefined : UInt16 := 0x3000
def association : UInt16 := 0x3001
def exifJpeg : UInt16 := 0x3801

end Format

namespace DatatypeCode

def int8 : UInt16 := 0x0001
def uint8 : UInt16 := 0x0002
def int16 : UInt16 := 0x0003
def uint16 : UInt16 := 0x0004
def int32 : UInt16 := 0x0005
def uint32 : UInt16 := 0x0006
def int64 : UInt16 := 0x0007
def uint64 : UInt16 := 0x0008
def str : UInt16 := 0xffff

end DatatypeCode

end Ptpsim.Core
