import Amp.Link.Carrier
import Amp.L2.MshMessages

set_option autoImplicit false

/- How a handshake message goes on the wire, whole or in pieces (AmpAdpCarrier.cpp). -/
namespace Amp

open Adp (Bytes)

def kMaxMshBodyPerDatagram : Nat := 900
def kMaxMshMessageBytes : Nat := 12288
def kMaxMshChunkCount : Nat :=
  (kMaxMshMessageBytes + kMaxMshBodyPerDatagram - 1) / kMaxMshBodyPerDatagram

/-- A piece of a message, as `DecodeMshChunk` has it. -/
structure MshChunk where
  type : MshMessageType
  index : Nat
  count : Nat
  piece : Bytes
  deriving DecidableEq, Repr

namespace AmpAdpCarrier

def encodeMsh (type : MshMessageType) (body : Bytes) : Bytes :=
  AmpAdpPayloadKind.msh.code :: type.code :: body

def encodeMshChunk (chunk : MshChunk) : Bytes :=
  AmpAdpPayloadKind.mshChunk.code :: chunk.type.code ::
    (LittleEndian.encode 2 chunk.index ++ (LittleEndian.encode 2 chunk.count ++ chunk.piece))

/-- How many pieces a body is sent in. -/
def mshChunkCount (body : Bytes) : Nat :=
  (body.length + kMaxMshBodyPerDatagram - 1) / kMaxMshBodyPerDatagram % 2 ^ 16

def mshPiece (body : Bytes) (index : Nat) : Bytes :=
  (body.drop (index * kMaxMshBodyPerDatagram)).take kMaxMshBodyPerDatagram

def encodeMshChunked (type : MshMessageType) (body : Bytes) : List Bytes :=
  if body.length ≤ kMaxMshBodyPerDatagram then [encodeMsh type body]
  else (List.range (mshChunkCount body)).map fun index =>
    encodeMshChunk ⟨type, index, mshChunkCount body, mshPiece body index⟩

def decodeMshType (payload : Bytes) : Except String MshMessageType :=
  match payload with
  | kind :: type :: _ =>
      if kind ≠ AmpAdpPayloadKind.msh.code then .error "amp carrier: not an msh payload"
      else .ok (MshMessageType.ofCode type)
  | _ => .error "amp carrier: truncated msh header"

def decodeMshBody (payload : Bytes) : Except String Bytes :=
  if payload.length < 2 then .error "amp carrier: truncated msh payload" else .ok (payload.drop 2)

def decodeMshChunk (payload : Bytes) : Except String MshChunk :=
  match payload with
  | kind :: type :: low :: high :: countLow :: countHigh :: piece =>
      if kind ≠ AmpAdpPayloadKind.mshChunk.code then .error "amp carrier: bad msh chunk"
      else .ok
        { type := MshMessageType.ofCode type
          index := LittleEndian.decode [low, high]
          count := LittleEndian.decode [countLow, countHigh]
          piece }
  | _ => .error "amp carrier: bad msh chunk"

end AmpAdpCarrier

end Amp
