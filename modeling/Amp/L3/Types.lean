import Amp.L1.Types

set_option autoImplicit false

/- Channel constants, classes, limits and policies (L3/Types.h,
AmpChannelLimits.h, ChannelPolicy.h, ChannelMux.h). -/
namespace Amp

open Adp (Bytes QosClass)

def kChannelHeaderBytes : Nat := 1 + 4 + 4
def kChannelFragFieldsBytes : Nat := 8 + 2 + 2 + 4
def kCapabilityChannelId : UInt32 := 0
def kIllegalChannelId : UInt32 := 0xFFFFFFFF
def kDefaultFragAssemblyTimeoutMs : Int := 30000
def kLossyFragAssemblyTimeoutMs : Int := 1000

inductive ChannelFrameType where
  | openFrame
  | openAck
  | data
  | close
  | reset
  | frag
  deriving DecidableEq, Repr

/-- A byte of the wire is cast to the class as it is, so a peer may name one that
no build knows. -/
inductive ChannelClass where
  | transactional
  | control
  | bulk
  | realtime
  | realtimeControl
  | unknown (code : UInt8) (beyond : 4 < code.toNat)
  deriving DecidableEq

namespace ChannelClass

def code : ChannelClass → UInt8
  | .transactional => 0
  | .control => 1
  | .bulk => 2
  | .realtime => 3
  | .realtimeControl => 4
  | .unknown code _ => code

def ofCode (code : UInt8) : ChannelClass :=
  if beyond : 4 < code.toNat then .unknown code beyond
  else match code.toNat with
    | 0 => .transactional
    | 1 => .control
    | 2 => .bulk
    | 3 => .realtime
    | _ => .realtimeControl

theorem ofCode_code (cls : ChannelClass) : ofCode cls.code = cls := by
  cases cls with
  | unknown code beyond => simp only [ofCode, ChannelClass.code, beyond, ↓reduceDIte]
  | _ => rfl

end ChannelClass

inductive ChannelState where
  | closed
  | opening
  | opened
  | closing
  deriving DecidableEq, Repr

def qosForClass : ChannelClass → QosClass
  | .realtime => .bestEffort
  | _ => .reliable

namespace AmpChannelLimits

def kMaxControlJsonFrameBytes : Nat := 64 * 1024
def kMaxChatStreamJsonBytes : Nat := 256 * 1024
def kMaxBulkFrameBytes : Nat := 4 * 1024 * 1024 + 64 * 1024
def kMaxConcurrentChannels : Nat := 256

end AmpChannelLimits

structure ChannelPolicy where
  cls : ChannelClass := .control
  maxMessageBytes : Nat := AmpChannelLimits.kMaxChatStreamJsonBytes
  readTimeoutMs : Int := 0
  deriving DecidableEq

structure MuxTuning where
  maxConcurrentChannels : Nat := AmpChannelLimits.kMaxConcurrentChannels
  maxQueuedBytes : Nat := 32 * 1024 * 1024
  fragAssemblyTimeoutMs : Int := kDefaultFragAssemblyTimeoutMs
  deriving DecidableEq, Repr

end Amp
