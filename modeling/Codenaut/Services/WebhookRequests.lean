import Codenaut.Services.Webhooks

/-!
# Webhook requests

What `handle` checks before it opens a session: the signature of the raw body,
its media type, the delivery headers, and the decoded payload, in this order.
-/

set_option autoImplicit false

namespace Codenaut.Services

open Codenaut.Db

/-- The raw body and the headers that `handle` reads. -/
structure WebhookRequest where
  body : List UInt8
  signature : Option String
  deliveryId : Option String
  eventName : Option String
  contentType : Option String
  deriving DecidableEq, Repr

inductive DecodeError where
  | malformed
  | uncaught
  deriving DecidableEq, Repr

/-- `hmac.new(secret, body, sha256).hexdigest()` under the configured secret,
and the decoded body: `malformed` is an error that `handle` catches. -/
structure WebhookCodec where
  hexdigest : List UInt8 → String
  decode : List UInt8 → Except DecodeError GitHub.WebhookPayload

inductive WebhookError where
  | signature
  | mediaType
  | payload
  | uncaught
  deriving DecidableEq, Repr

/-- A delivery that passed every check. -/
structure AuthenticDelivery where
  deliveryId : String
  eventName : String
  payload : GitHub.WebhookPayload
  supported : (webhookEvent eventName payload).isSome = true
  deriving DecidableEq

/-! ## Headers -/

def isLowerHex (character : Char) : Bool :=
  character.isDigit || ('a' ≤ character && character ≤ 'f')

/-- `^sha256=[0-9a-f]{64}$` -/
def signaturePattern (signature : String) : Bool :=
  signature.toList.take 7 == "sha256=".toList &&
    (signature.toList.drop 7).length == 64 && (signature.toList.drop 7).all isLowerHex

def isDeliveryCharacter (character : Char) : Bool :=
  ('A' ≤ character && character ≤ 'Z') || ('a' ≤ character && character ≤ 'z') ||
    character.isDigit || character == '-'

/-- `^[A-Za-z0-9-]{1,255}$` -/
def deliveryPattern (deliveryId : String) : Bool :=
  decide (1 ≤ deliveryId.length) && decide (deliveryId.length ≤ 255) &&
    deliveryId.toList.all isDeliveryCharacter

/-- `^[a-z_]{1,64}$` -/
def eventPattern (eventName : String) : Bool :=
  decide (1 ≤ eventName.length) && decide (eventName.length ≤ 64) &&
    eventName.toList.all fun character =>
      ('a' ≤ character && character ≤ 'z') || character == '_'

/-- `str.isspace` of one character. -/
def isSpace (character : Char) : Bool :=
  let code := character.toNat
  (9 ≤ code && code ≤ 13) || (28 ≤ code && code ≤ 32) || code == 0x85 || code == 0xA0 ||
    code == 0x1680 || (0x2000 ≤ code && code ≤ 0x200A) || code == 0x2028 || code == 0x2029 ||
    code == 0x202F || code == 0x205F || code == 0x3000

def strip (text : List Char) : List Char :=
  ((text.dropWhile isSpace).reverse.dropWhile isSpace).reverse

/-- `content_type.partition(";")[0].strip().lower()`; no character outside ASCII
is lowered to a letter of `application/json`. -/
def mediaType : Option String → List Char
  | none => []
  | some contentType =>
      (strip (contentType.toList.takeWhile (· != ';'))).map Char.toLower

/-! ## Checks -/

/-- `verify_signature` -/
def verifySignature (codec : WebhookCodec) (body : List UInt8) (signature : Option String) :
    Except WebhookError Unit :=
  match signature with
  | none => .error .signature
  | some signature =>
      if !signaturePattern signature then .error .signature
      else if "sha256=" ++ codec.hexdigest body ≠ signature then .error .signature
      else .ok ()

def decodePayload (codec : WebhookCodec) (body : List UInt8) :
    Except WebhookError GitHub.WebhookPayload :=
  match codec.decode body with
  | .error .malformed => .error .payload
  | .error .uncaught => .error .uncaught
  | .ok payload => .ok payload

/-- The headers of a delivery, once both patterns match. -/
def deliveryHeaders (request : WebhookRequest) : Except WebhookError (String × String) :=
  match request.deliveryId, request.eventName with
  | some deliveryId, some eventName =>
      if deliveryPattern deliveryId && eventPattern eventName then .ok (deliveryId, eventName)
      else .error .payload
  | _, _ => .error .payload

/-- `handle` up to `_validate_supported_payload`. -/
def acceptRequest (codec : WebhookCodec) (request : WebhookRequest) :
    Except WebhookError AuthenticDelivery := do
  verifySignature codec request.body request.signature
  if mediaType request.contentType ≠ "application/json".toList then
    throw .mediaType
  let (deliveryId, eventName) ← deliveryHeaders request
  let payload ← decodePayload codec request.body
  if supported : (webhookEvent eventName payload).isSome = true then
    return { deliveryId, eventName, payload, supported }
  else throw .payload

end Codenaut.Services
