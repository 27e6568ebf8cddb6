import Mathlib.Data.List.Infix

/-!
How the C++ HTTP servers write a response: `BuildHttpResponse` adds a `Content-Length`,
`BuildchunkedResponse` writes bodies as chunks if chunked coding is on. Which is taken depends on
the headers and on `sseChunked`, a flag of the connection. The SDKs differ in two details (`Sdk`).
-/

namespace AgentProtocols.Shared

/-- `std::string`: a character stands for one byte. -/
abbrev Text := List Char

inductive Sdk where
  | a2a
  | mcp
deriving DecidableEq

inductive HttpSendType where
  | httpResponse
  | httpResponseStart
  | httpResponseBody
deriving DecidableEq

/-- `HttpResponse`, as far as it is written. -/
structure HttpResponse where
  statusCode : Nat := 200
  statusText : Text := "OK".toList
  type : HttpSendType := .httpResponse
  headers : List (Text × Text) := []
  body : Text := []
  streaming : Bool := true
deriving DecidableEq

def Sdk.transferEncodingHeader : Sdk → Text
  | .a2a => "Transfer-Encoding".toList
  | .mcp => "transfer-encoding".toList

def transferEncodingChunked : Text := "chunked".toList

/-- `::tolower` for every character. -/
def lowerCase (t : Text) : Text := t.map Char.toLower

def findHeaderCaseInsensitive (headers : List (Text × Text)) (name : Text) : Option Text :=
  match headers.lookup name with
  | some value => some value
  | none => (headers.find? fun h => lowerCase h.1 = lowerCase name).map Prod.snd

namespace HttpResponse

/-- The value of the `Transfer-Encoding` header where the server finds one. -/
def transferEncoding (sdk : Sdk) (r : HttpResponse) : Option Text :=
  match sdk with
  | .a2a => (findHeaderCaseInsensitive r.headers sdk.transferEncodingHeader).filter (· ≠ [])
  | .mcp => r.headers.lookup sdk.transferEncodingHeader

/-- The header asks for chunked coding. -/
def chunked (sdk : Sdk) (r : HttpResponse) : Bool :=
  (r.transferEncoding sdk).any fun value => decide (transferEncodingChunked <:+: value)

end HttpResponse

/-- The end of a line. -/
def crlf : Text := ['\r', '\n']

/-- The status line and the headers, without the empty line. -/
def headLines (r : HttpResponse) : Text :=
  "HTTP/1.1 ".toList ++ Nat.toDigits 10 r.statusCode ++ ' ' :: r.statusText ++ crlf ++
    r.headers.flatMap fun h => h.1 ++ ": ".toList ++ h.2 ++ crlf

def buildHttpResponse (r : HttpResponse) : Text :=
  (if r.type ≠ .httpResponseBody then
    headLines r ++ "Content-Length: ".toList ++ Nat.toDigits 10 r.body.length ++ crlf ++ crlf
  else []) ++
  (if r.type ≠ .httpResponseStart then r.body else [])

/-- `BuildchunkedResponse`, with the flag that it leaves. -/
def buildchunkedResponse (sdk : Sdk) (r : HttpResponse) (chunkedEnabled : Bool) : Text × Bool :=
  let chunkedEnabled := if (r.transferEncoding sdk).isSome then r.chunked sdk else chunkedEnabled
  ((if r.type ≠ .httpResponseBody then headLines r ++ crlf else []) ++
    (if chunkedEnabled ∧
        (r.type = .httpResponseBody ∨ (r.type = .httpResponse ∧ 0 < r.body.length)) then
      Nat.toDigits 16 r.body.length ++ crlf ++ r.body ++ crlf
    else []),
    chunkedEnabled)

/-- What `SendResponse` writes on a connection with the flag `sseChunked`, and the
flag afterwards. -/
def rawResponse (sdk : Sdk) (r : HttpResponse) (sseChunked : Bool) : Text × Bool :=
  if r.chunked sdk ∨ (sseChunked ∧ (sdk = .a2a → r.streaming)) then
    buildchunkedResponse sdk r sseChunked
  else (buildHttpResponse r, sseChunked)

end AgentProtocols.Shared
