import AgentProtocols.A4P.Util

/-!
Helpers of both authorization services: the outcome of a verification, the
stable code of a rejection, and the comparison of a submitted mandate with the
pending one.
-/

namespace AgentProtocols.A4P

open Json

structure VerificationResult where
  valid : Bool
  reason : Option String
  code : Option String
  matchedScope : Option JsonDict

namespace VerificationResult

def ok (matchedScope : Option JsonDict) : VerificationResult := ⟨true, none, none, matchedScope⟩

def fail (reason code : String) : VerificationResult := ⟨false, some reason, some code, none⟩

end VerificationResult

def containsText (text part : String) : Bool := decide (part.toList <:+: text.toList)

/-- `error_code`: the first keyword of the reason decides. -/
def errorCode (P : Platform) (reason codePrefix : String) : String :=
  let lower := P.toLowercase reason
  if containsText lower "expired" then codePrefix ++ "_EXPIRED"
  else if containsText lower "usage" || containsText lower "execution" ||
      containsText lower "limit" then codePrefix ++ "_USAGE_EXCEEDED"
  else if containsText lower "signature" then codePrefix ++ "_SIGNATURE_INVALID"
  else if containsText lower "mismatch" || containsText lower "scope" ||
      containsText lower "actions" || containsText lower "param" then
    codePrefix ++ "_SCOPE_MISMATCH"
  else codePrefix ++ "_INVALID"

/-- Empty `signatures.user`. -/
def clearUserSignature (mandate : JsonDict) : JsonDict :=
  match mandate.get "signatures" with
  | none => mandate.insert "signatures" (.obj [("user", .obj [])])
  | some (.obj signatures) =>
    mandate.insert "signatures" (.obj (JsonDict.insert signatures "user" (.obj [])))
  | some _ => mandate

/-- The signed mandate equals the pending one apart from `signatures.user`. -/
def mandateMatchesPending (signedMandate pendingMandate : JsonDict)
    (normalize : JsonDict → Except A4PError JsonDict) : Bool :=
  match normalize signedMandate, normalize pendingMandate with
  | .ok signed, .ok pending =>
    (Json.obj (clearUserSignature signed)).beq (.obj (clearUserSignature pending))
  | _, _ => false

end AgentProtocols.A4P
