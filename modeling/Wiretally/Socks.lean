import Wiretally.Lib.Tcp
import Wiretally.Net

/-!
SOCKS5: the handshake, the replies, and the header of a relayed datagram.
-/

namespace Wiretally.Socks

open Wiretally.Lib.AsyncIo Wiretally.Lib.Tcp Wiretally.Lib.Tcp.TcpStream Wiretally.Net

def version : UInt8 := 0x05

/-- Tells SOCKS clients from HTTP ones. -/
def greetingByte : UInt8 := version

def methodNone : UInt8 := 0x00
def methodUnacceptable : UInt8 := 0xFF

def cmdConnect : UInt8 := 0x01
def cmdUdpAssociate : UInt8 := 0x03

def atypIpv4 : UInt8 := 0x01
def atypDomain : UInt8 := 0x03
def atypIpv6 : UInt8 := 0x04

/-- `RSV(2) FRAG(1) ATYP(1)`. -/
def udpHeaderPrefix : ℕ := 4

def repSuccess : UInt8 := 0x00
def repGeneralFailure : UInt8 := 0x01
def repConnectionRefused : UInt8 := 0x05
def repCommandNotSupported : UInt8 := 0x07
def repAddressNotSupported : UInt8 := 0x08

/-- A destination requested by a client. -/
structure Request where
  host : Text
  port : UInt16
  deriving DecidableEq

inductive Command
  | connect (request : Request)
  | udpAssociate (request : Request)
  deriving DecidableEq

/-- Why a handshake could not be completed. -/
inductive Error
  | io (err : IoError)
  | unsupportedVersion (version : UInt8)
  | noAcceptableMethod
  | unsupportedCommand (command : UInt8)
  | unsupportedAddressType (addressType : UInt8)
  deriving DecidableEq

def Error.replyCode : Error → UInt8
  | .unsupportedCommand _ => repCommandNotSupported
  | .unsupportedAddressType _ => repAddressNotSupported
  | _ => repGeneralFailure

/-- The host a domain name in a request stands for. -/
def domainHost (domain : List UInt8) : Text :=
  Text.toAsciiLowercase (Text.trimEndMatches '.' (Text.fromUtf8Lossy domain))

def u16FromBeBytes (port : List.Vector UInt8 2) : UInt16 :=
  .ofNat ((port.get 0).toNat * 256 + (port.get 1).toNat)

def u16ToBeBytes (port : UInt16) : List UInt8 :=
  [.ofNat (port.toNat / 256), .ofNat (port.toNat % 256)]

/-! ### The handshake -/

/-- The address of a request, of the type announced. -/
def acceptHost (addressType : UInt8) : TcpTask Error Text :=
  if addressType = atypIpv4 then do
    let octets ← (readExact 4).mapErr .io
    pure (IpAddr.v4 octets).toText
  else if addressType = atypIpv6 then do
    let octets ← (readExact 16).mapErr .io
    pure (IpAddr.v6 octets).toText
  else if addressType = atypDomain then do
    let len ← (readExact 1).mapErr .io
    let domain ← (readExact (len.get 0).toNat).mapErr .io
    pure (domainHost domain.toList)
  else .fail (.unsupportedAddressType addressType)

/-- The request, behind the method selection. -/
def acceptRequest : TcpTask Error Command := do
  let header ← (readExact 4).mapErr .io
  if header.get 0 ≠ version then .fail (.unsupportedVersion (header.get 0))
  else do
    let command := header.get 1
    let addressType := header.get 3
    -- the whole request is drained before the command is looked at
    let host ← acceptHost addressType
    let port ← (readExact 2).mapErr .io
    let request : Request := ⟨host, u16FromBeBytes port⟩
    if command = cmdConnect then pure (.connect request)
    else if command = cmdUdpAssociate then pure (.udpAssociate request)
    else .fail (.unsupportedCommand command)

/-- Performs the greeting and reads the client's request; the reply is the caller's. -/
def accept : TcpTask Error Command := do
  let greeting ← (readExact 2).mapErr .io
  if greeting.get 0 ≠ version then .fail (.unsupportedVersion (greeting.get 0))
  else do
    let methods ← (readExact (greeting.get 1).toNat).mapErr .io
    if methodNone ∉ methods.toList then do
      (writeAll [version, methodUnacceptable]).mapErr .io
      .fail .noAcceptableMethod
    else do
      (writeAll [version, methodNone]).mapErr .io
      acceptRequest

/-- Sends a reply with the given code and an all-zero bound address. -/
def reply (code : UInt8) : TcpTask IoError Unit :=
  writeAll [version, code, 0x00, atypIpv4, 0, 0, 0, 0, 0, 0]

/-- Sends a reply advertising `bound` as the address to talk to. -/
def replyBound (code : UInt8) (bound : SocketAddr) : TcpTask IoError Unit :=
  let out := [version, code, 0x00]
  let out := match bound.ip with
    | .v4 ip => out ++ [atypIpv4] ++ ip.toList
    | .v6 ip => out ++ [atypIpv6] ++ ip.toList
  writeAll (out ++ u16ToBeBytes bound.port)

/-! ### Datagrams -/

/-- A datagram with its relay header stripped. -/
structure Datagram where
  host : Text
  port : UInt16
  payload : List UInt8
  deriving DecidableEq

inductive DatagramError
  | truncated
  | unsupportedAddressType (addressType : UInt8)
  | fragmented (frag : UInt8)
  deriving DecidableEq

def readSlice (n : ℕ) (buf : List UInt8) (cursor : ℕ) :
    Except DatagramError (List.Vector UInt8 n × ℕ) :=
  if h : cursor + n ≤ buf.length then
    .ok (⟨(buf.drop cursor).take n, by rw [List.length_take, List.length_drop]; omega⟩, cursor + n)
  else .error .truncated

/-- The address of a datagram, of the type announced, and where it ends. -/
def datagramHost (buf : List UInt8) (cursor : ℕ) (addressType : UInt8) :
    Except DatagramError (Text × ℕ) :=
  if addressType = atypIpv4 then do
    let (octets, cursor) ← readSlice 4 buf cursor
    pure ((IpAddr.v4 octets).toText, cursor)
  else if addressType = atypIpv6 then do
    let (octets, cursor) ← readSlice 16 buf cursor
    pure ((IpAddr.v6 octets).toText, cursor)
  else if addressType = atypDomain then do
    let (len, cursor) ← readSlice 1 buf cursor
    let stop := cursor + (len.get 0).toNat
    if stop ≤ buf.length then
      pure (domainHost ((buf.drop cursor).take (stop - cursor)), stop)
    else .error .truncated
  else .error (.unsupportedAddressType addressType)

/-- `RSV(2) FRAG(1) ATYP(1) DST.ADDR DST.PORT DATA`. -/
def parseDatagram (buf : List UInt8) : Except DatagramError Datagram :=
  if buf.length < udpHeaderPrefix then .error .truncated
  else if buf.getD 2 0 ≠ 0 then .error (.fragmented (buf.getD 2 0))
  else do
    let (host, cursor) ← datagramHost buf udpHeaderPrefix (buf.getD 3 0)
    let (port, cursor) ← readSlice 2 buf cursor
    pure ⟨host, u16FromBeBytes port, buf.drop cursor⟩

/-- Wraps `payload` in a relay header naming its source, in a buffer used before. -/
def encodeDatagram (source : SocketAddr) (payload : List UInt8) (out : List UInt8) : List UInt8 :=
  let out := out.take 0
  let out := out ++ [0x00, 0x00, 0x00]
  let out := match source.ip with
    | .v4 ip => out ++ [atypIpv4] ++ ip.toList
    | .v6 ip => out ++ [atypIpv6] ++ ip.toList
  let out := out ++ u16ToBeBytes source.port
  out ++ payload

end Wiretally.Socks
