import SecureOS.CapabilityModel

/-! # HTTP clients

`user/libs/netlib/http.c`, `https.c` and `url_scheme.c`: how a URL is taken apart, and the bytes
of a request.  The two clients hold copies of one code, which differ in the schemes. -/

namespace Netlib

open Capability (CStr)

inductive UrlScheme
  | unknown
  | http
  | https
deriving DecidableEq

def netlibUrlClassifyScheme : Option CStr → UrlScheme
  | none | some [] => .unknown
  | some url =>
    if "https://".toList.isPrefixOf url then .https
    else if "http://".toList.isPrefixOf url then .http
    else .unknown

/-- `https_parsed_url_t`, and `http_parsed_url_t` but for its `is_https`. -/
structure ParsedUrl where
  host : CStr
  port : UInt16
  path : CStr
  valid : Bool
deriving DecidableEq

/-- The digits of a port, in an `unsigned int`. -/
def portVal (digits : CStr) : UInt32 :=
  digits.foldl (fun val c => val * 10 + UInt32.ofNat (c.toNat - '0'.toNat)) 0

/-- The port and what stands behind it.  Digits out of range are skipped. -/
def parsePort (port : UInt16) : CStr → UInt16 × CStr
  | ':' :: cursor =>
    let val := portVal (cursor.takeWhile Char.isDigit)
    (if 0 < val ∧ val ≤ 65535 then val.toUInt16 else port, cursor.dropWhile Char.isDigit)
  | cursor => (port, cursor)

def inHost (c : Char) : Bool := c ≠ '/' && c ≠ ':'

/-- What both parsers do behind the scheme; `port` is the default. -/
def parseAuthority (port : UInt16) (cursor : CStr) : ParsedUrl :=
  let host := cursor.takeWhile inHost
  let (port, cursor) := parsePort port (cursor.dropWhile inHost)
  { host := host.take 127
    port
    path := if cursor = [] then ['/'] else cursor.take 255
    valid := host ≠ [] }

/-- The parsed URL and `is_https`. -/
def httpParseUrl : Option CStr → ParsedUrl × Bool
  | none | some [] => (⟨[], 80, [], false⟩, false)
  | some url =>
    if "https://".toList.isPrefixOf url then (parseAuthority 443 (url.drop 8), true)
    else if "http://".toList.isPrefixOf url then (parseAuthority 80 (url.drop 7), false)
    else if "//".toList.isPrefixOf url then (parseAuthority 80 (url.drop 2), false)
    else (parseAuthority 80 url, false)

def httpsParseUrl : Option CStr → ParsedUrl
  | none | some [] => ⟨[], 443, [], false⟩
  | some url =>
    if "https://".toList.isPrefixOf url then parseAuthority 443 (url.drop 8)
    else if "//".toList.isPrefixOf url then parseAuthority 443 (url.drop 2)
    else ⟨[], 443, [], false⟩

structure HttpHeader where
  name : CStr
  value : CStr

/-- `http_request_t`, with no characters for no body. -/
structure HttpRequest where
  method : Option CStr
  url : Option CStr
  extraHeaders : List HttpHeader
  body : CStr

/-- `sizeof(req_buf)`. -/
def reqBufSize : Nat := 4096

def httpAppend (buf str : CStr) : CStr := buf ++ str.take (reqBufSize - 1 - buf.length)

def HttpRequest.usedMethod (req : HttpRequest) : CStr :=
  (req.method.filter (· ≠ [])).getD "GET".toList

/-- What `http_append` and `http_append_u32` are called with, in order. -/
def requestPieces (parsed : ParsedUrl) (req : HttpRequest) : List CStr :=
  [req.usedMethod, " ".toList, parsed.path, " HTTP/1.1\r\n".toList, "Host: ".toList, parsed.host,
    "\r\n".toList, "Connection: close\r\n".toList, "User-Agent: SecureOS/1.0\r\n".toList]
  ++ req.extraHeaders.flatMap (fun h =>
    if h.name = [] then [] else [h.name, ": ".toList, h.value, "\r\n".toList])
  ++ (if req.body = [] then [] else ["Content-Length: ".toList,
    Nat.toDigits 10 (UInt32.ofNat req.body.length).toNat, "\r\n".toList])
  ++ ["\r\n".toList]

def buildRequest (parsed : ParsedUrl) (req : HttpRequest) : CStr :=
  let buf := (requestPieces parsed req).foldl httpAppend []
  buf ++ req.body.take (reqBufSize - buf.length)

/-- The bytes that are sent, once the host has an address and the connection stands; `tlsSend` is
    whether `tls_send` takes them. -/
def httpsRequest (tlsSend : CStr → Bool) (req : HttpRequest) : Option CStr :=
  let parsed := httpsParseUrl req.url
  if parsed.valid then (some (buildRequest parsed req)).filter tlsSend else none

/-- The same with `tcp_send` or, of an https URL, with `tls_send`. -/
def httpRequest (tcpSend tlsSend : CStr → Bool) (req : HttpRequest) : Option CStr :=
  let (parsed, isHttps) := httpParseUrl req.url
  if netlibUrlClassifyScheme req.url = .unknown ∨ !parsed.valid then none
  else if isHttps then httpsRequest tlsSend req
  else (some (buildRequest parsed req)).filter tcpSend

end Netlib
