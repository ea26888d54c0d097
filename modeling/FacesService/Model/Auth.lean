import FacesService.Model.Reader

/-!
`app/auth.py`: who a request comes from. `jwt.decode` is a parameter, and so is
the key the tokens are checked against, which the service fetches when it comes
up. Of the claims of a token only the user and the role are read by an endpoint.
-/

namespace FacesService.Auth

open Reader

/-- The claims `user_id` and `role`. -/
structure Claims where
  userId : Option String
  role : Option String
  deriving DecidableEq

/-- What comes of `jwt.decode`. -/
inductive Decoded
  | claims (c : Claims)
  /-- `ExpiredSignatureError` -/
  | expired
  /-- any other `InvalidTokenError` -/
  | invalid
  /-- any other exception -/
  | raises
  deriving DecidableEq

/-- `jwt.decode` on a key and a token. -/
structure Identity where
  decode : String → String → Decoded

/-- What the token service raises: an `AuthError`, or something else. -/
inductive Raised
  | authError (status : ℕ) (message : String)
  | other
  deriving DecidableEq

structure TokenService where
  publicKeyPem : String
  deriving DecidableEq

namespace TokenService

/-- `validate`. -/
def validate (identity : Identity) (svc : TokenService) (token : String) : Except Raised Claims :=
  match identity.decode svc.publicKeyPem token with
  | .claims c => .ok c
  | .expired => .error (.authError 401 "token expired")
  | .invalid => .error (.authError 401 "invalid token")
  | .raises => .error .other

end TokenService

/-- `get_token_service`. -/
def getTokenService : Option TokenService → Except Raised TokenService
  | none => .error (.authError 503 "token service not initialized")
  | some svc => .ok svc

/-- `auth_header.startswith("Bearer ")` and what follows, stripped. -/
def bearerToken (authHeader : String) : Option String :=
  if "Bearer ".toList.isPrefixOf authHeader.toList then
    some (pyStrip (String.ofList (authHeader.toList.drop "Bearer ".toList.length)))
  else none

/-- `authorized`, for a deployment with this `_token_service`. -/
def authorized (identity : Identity) (tokens : Option TokenService) (authHeader : Option String) :
    Except PyError AuthContext :=
  match authHeader.bind bearerToken with
  | none => .error (.auth 401 "missing bearer token")
  | some token =>
      if token = "" then .error (.auth 401 "missing bearer token")
      else match getTokenService tokens with
        | .error _ => .error (.auth 503 "token service unavailable")
        | .ok svc =>
            match svc.validate identity token with
            | .error (.authError status message) => .error (.auth status message)
            | .error .other => .error (.auth 401 "invalid token")
            | .ok claims =>
                if truthy claims.userId then .ok ⟨claims.userId.getD "", claims.role⟩
                else .error (.auth 401 "token missing user_id")

/-- `internal_token`, where `FACES_INTERNAL_TOKEN` is `expected`. -/
def internalToken (expected : String) (token : Option String) : Except PyError Unit :=
  if expected = "" then .error (.auth 503 "internal token not configured")
  else if token ≠ some expected then .error (.auth 401 "invalid internal token")
  else .ok ()

end FacesService.Auth
