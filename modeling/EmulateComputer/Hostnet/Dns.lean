import EmulateComputer.Hostnet.Substrate

/-!
# Dns — query parsing and response synthesis

The part of RFC 1035 the resolver address answers with: single-question queries in, and responses
that echo the question section byte for byte.
-/

namespace EmulateComputer

namespace Dns

def TYPE_A : U16 := 1
def TYPE_AAAA : U16 := 28
def CLASS_IN : U16 := 1

def RCODE_NOERROR : U8 := 0
def RCODE_SERVFAIL : U8 := 2
def RCODE_NXDOMAIN : U8 := 3
def RCODE_NOTIMPL : U8 := 4

/-- TTL stamped on synthesized answers. -/
def DNS_TTL : U32 := 60

structure Query where
  id : U16
  recursionDesired : Bool
  /-- Lowercased, no trailing dot. -/
  name : List Char
  qtype : U16
  qclass : U16
  /-- The question section as it came, so the response can echo it. -/
  questionRaw : List U8
  deriving DecidableEq

def u16be (hi lo : U8) : U16 :=
  hi ++ lo

def toBe16 (v : U16) : List U8 :=
  [v.extractLsb' 8 8, v.extractLsb' 0 8]

def toBe32 (v : U32) : List U8 :=
  [v.extractLsb' 24 8, v.extractLsb' 16 8, v.extractLsb' 8 8, v.extractLsb' 0 8]

/-- The length of a name in UTF-8, as `String::len` counts it. -/
def nameLen (name : List Char) : Nat :=
  (name.map Char.utf8Size).sum

/-- Read labels up to the root, joining them with dots.  A label costs at least one byte, so the
number of bytes left bounds the number of turns. -/
def readLabels : Nat → List U8 → List Char → Option (List Char × List U8)
  | 0, _, _ => none
  | _ + 1, [], _ => none
  | turns + 1, len :: rest, name =>
    -- A compression pointer in a question is rejected.
    if len &&& 0xc0 ≠ 0 then none
    else if len = 0 then some (name, rest)
    else if rest.length < len.toNat then none
    else
      let label := (rest.take len.toNat).map fun b => (Char.ofNat b.toNat).toLower
      let name := (if name.isEmpty then name else name ++ ['.']) ++ label
      if 255 < nameLen name then none
      else readLabels turns (rest.drop len.toNat) name

/-- `none` for anything that is not a well-formed standard query with exactly one question. -/
def parseQuery (buf : List U8) : Option Query :=
  match buf with
  | id1 :: id0 :: f1 :: f0 :: q1 :: q0 :: _ :: _ :: _ :: _ :: _ :: _ :: question =>
    let flags := u16be f1 f0
    -- A response, a non-standard opcode, or another number of questions.
    if flags &&& 0x8000 ≠ 0 ∨ (flags >>> 11) &&& 0xf ≠ 0 ∨ u16be q1 q0 ≠ 1 then none
    else
      match readLabels (question.length + 1) question [] with
      | some (name, t1 :: t0 :: c1 :: c0 :: rest) =>
        some
          { id := u16be id1 id0, recursionDesired := flags &&& 0x0100 ≠ 0, name
            qtype := u16be t1 t0, qclass := u16be c1 c0
            questionRaw := question.take (question.length - rest.length) }
      | _ => none
  | _ => none

def header (query : Query) (rcode : U8) (ancount : U16) : List U8 :=
  -- A response with recursion available; the recursion-desired bit is echoed.
  let flags : U16 := 0x8000 ||| 0x0080 ||| (rcode.setWidth 16 &&& 0xf)
  let flags := if query.recursionDesired then flags ||| 0x0100 else flags
  toBe16 query.id ++ toBe16 flags ++ toBe16 1 ++ toBe16 ancount ++ [0, 0, 0, 0]

def answerRecord (addr : Ipv4) : List U8 :=
  [0xc0, 0x0c] ++ toBe16 TYPE_A ++ toBe16 CLASS_IN ++ toBe32 DNS_TTL ++ toBe16 4 ++
    [addr.a, addr.b, addr.c, addr.d]

def buildAnswer (query : Query) (addrs : List Ipv4) : List U8 :=
  header query RCODE_NOERROR (BitVec.ofNat 16 addrs.length) ++ query.questionRaw ++
    addrs.flatMap answerRecord

def buildError (query : Query) (rcode : U8) : List U8 :=
  header query rcode 0 ++ query.questionRaw

end Dns

end EmulateComputer
