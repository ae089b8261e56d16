import Mathlib.Data.List.Flatten
import Mathlib.Data.List.TakeDrop
import Mathlib.Data.List.TakeWhile
import SecureOS.HttpModel

/-! # URLs and requests

* `url_exact_iff` — what a parser makes of a URL is the URL exactly if its parts fit.
* `request_complete_iff` — a request that is sent is complete exactly if it fits. -/

namespace Netlib

open List

open Capability (CStr)

/-! ## URLs -/

/-- A URL of the form scheme://host[:port][/path]. -/
structure Url where
  https : Bool
  host : CStr
  port : Option CStr
  path : CStr
  host_ok : ∀ c ∈ host, inHost c
  port_ok : ∀ digits ∈ port, digits ≠ [] ∧ ∀ c ∈ digits, c.isDigit
  path_ok : ∀ c ∈ path.head?, c = '/'

/-- What stands behind the host. -/
def Url.tail (u : Url) : CStr := (u.port.elim [] (':' :: ·)) ++ u.path

def Url.text (u : Url) : CStr :=
  (if u.https then "https://".toList else "http://".toList) ++ (u.host ++ u.tail)

def Url.defaultPort (u : Url) : UInt16 := if u.https then 443 else 80

def decimal (digits : CStr) : Nat := Nat.ofDigitChars 10 digits 0

/-- The number a port is written as, or the default of the scheme. -/
def Url.portNumber (u : Url) : Nat :=
  u.port.elim u.defaultPort.toNat decimal

/-- A parsed URL that is valid is the URL. -/
def Url.Exact (u : Url) (parsed : ParsedUrl) : Prop :=
  parsed.valid → parsed.host = u.host ∧ parsed.port.toNat = u.portNumber
    ∧ parsed.path = if u.path = [] then ['/'] else u.path

/-- The URL is what the parsers make of it, and they agree on it. -/
def Url.ParsedExactly (u : Url) : Prop :=
  netlibUrlClassifyScheme (some u.text) = (if u.https then .https else .http)
    ∧ (httpParseUrl (some u.text)).2 = u.https ∧ u.Exact (httpParseUrl (some u.text)).1
    ∧ (u.https → httpsParseUrl (some u.text) = (httpParseUrl (some u.text)).1)

/-- The parts of the URL fit what they are parsed into. -/
def Url.Fits (u : Url) : Prop :=
  u.host.length ≤ 127 ∧ (∀ digits ∈ u.port, 0 < decimal digits ∧ decimal digits ≤ 65535)
    ∧ u.path.length ≤ 255

theorem span_append {l r : CStr} (hl : ∀ c ∈ l, p c) (hr : ∀ c ∈ r.head?, p c = false) :
    (l ++ r).takeWhile p = l ∧ (l ++ r).dropWhile p = r := by
  rw [takeWhile_append_of_pos hl, dropWhile_append_of_pos hl]
  cases r with
  | nil => simp
  | cons c => simp [hr c rfl]

theorem portVal_eq (digits : CStr) : portVal digits = UInt32.ofNat (decimal digits) := by
  refine foldl_hom UInt32.ofNat (fun n c => ?_)
  rw [UInt32.ofNat_add, UInt32.ofNat_mul, UInt32.mul_comm]
  rfl

/-- The port used is the one written exactly if that is one. -/
theorem port_exact_iff (hport : 0 < port.toNat) (hdigits : ∀ c ∈ digits, c.isDigit) :
    (parsePort port (':' :: digits)).1.toNat = decimal digits
      ↔ 0 < decimal digits ∧ decimal digits ≤ 65535 := by
  have hmax := port.toNat_lt
  rw [parsePort, takeWhile_eq_self_iff.mpr hdigits, portVal_eq]
  generalize decimal digits = n
  simp only [UInt32.lt_iff_toNat_lt, UInt32.le_iff_toNat_le, UInt32.toNat_ofNat']
  split_ifs with h
  · simp only [UInt32.toNat_toUInt16, UInt32.toNat_ofNat']
    simp at h ⊢
    omega
  · simp at h ⊢
    omega

variable (u : Url)

/-- What both parsers make of what stands behind the scheme. -/
theorem parseAuthority_eq (port : UInt16) : parseAuthority port (u.host ++ u.tail) =
    { host := u.host.take 127
      port := u.port.elim port (fun digits => (parsePort port (':' :: digits)).1)
      path := if u.path = [] then ['/'] else u.path.take 255
      valid := u.host ≠ [] } := by
  have hpath : ∀ c ∈ u.path.head?, c.isDigit = false ∧ inHost c = false := by
    intro c hc
    rw [u.path_ok c hc]
    decide
  have htail : ∀ c ∈ u.tail.head?, inHost c = false := by
    cases hp : u.port with
    | none => simpa [Url.tail, hp] using fun c hc => (hpath c hc).2
    | some digits => simp [Url.tail, hp, inHost]
  have hsplit : parsePort port u.tail
      = (u.port.elim port (fun digits => (parsePort port (':' :: digits)).1), u.path) := by
    cases hp : u.port with
    | none =>
      rw [Url.tail, hp]
      show parsePort port u.path = (port, u.path)
      cases hpa : u.path with
      | nil => rfl
      | cons c =>
        rw [u.path_ok c (by rw [hpa]; rfl)]
        rfl
    | some digits =>
      have hdigits := (u.port_ok digits hp).2
      have hspan := span_append hdigits (fun c hc => (hpath c hc).1)
      rw [Url.tail, hp]
      show parsePort port (':' :: (digits ++ u.path)) = _
      simp only [parsePort, hspan.1, hspan.2, takeWhile_eq_self_iff.mpr hdigits, Option.elim_some]
  simp only [parseAuthority, (span_append u.host_ok htail).1, (span_append u.host_ok htail).2,
    hsplit]

theorem exact_iff :
    u.Exact (parseAuthority u.defaultPort (u.host ++ u.tail)) ↔ u.host = [] ∨ u.Fits := by
  have hport : (u.port.elim u.defaultPort
        (fun digits => (parsePort u.defaultPort (':' :: digits)).1)).toNat = u.portNumber
      ↔ ∀ digits ∈ u.port, 0 < decimal digits ∧ decimal digits ≤ 65535 := by
    have hdefault : 0 < u.defaultPort.toNat := by
      rw [Url.defaultPort]
      split <;> decide
    rw [Url.portNumber]
    cases hp : u.port with
    | none => simp
    | some digits => simpa using port_exact_iff hdefault (u.port_ok digits hp).2
  have hpath : (if u.path = [] then ['/'] else u.path.take 255)
      = (if u.path = [] then ['/'] else u.path) ↔ u.path.length ≤ 255 := by
    split_ifs with h
    · simp [h]
    · exact take_eq_self_iff _
  rw [Url.Exact, parseAuthority_eq, hport, hpath, Url.Fits, ← take_eq_self_iff u.host]
  by_cases hhost : u.host = []
  · simp [hhost]
  · simp [hhost]

/-- **A URL IS USED AS IT IS WRITTEN** exactly if it has no host, and is refused, or its parts
    fit. -/
theorem url_exact_iff : u.ParsedExactly ↔ u.host = [] ∨ u.Fits := by
  rw [Url.ParsedExactly, ← exact_iff]
  cases hs : u.https with
  | _ => simp [Url.text, Url.defaultPort, hs, httpParseUrl, httpsParseUrl, netlibUrlClassifyScheme]

/-- A port too large is replaced by the default or, past the `unsigned int`, by another. -/
theorem port_changed : (httpParseUrl (some "http://h:65536".toList)).1 = ⟨['h'], 80, ['/'], true⟩
      ∧ httpsParseUrl (some "https://h:4294967376/".toList) = ⟨['h'], 80, ['/'], true⟩ := by
  decide

/-! ## Requests -/

/-- Lines, each ended, and an empty line. -/
def head (lines : List CStr) : CStr := lines.flatMap (· ++ "\r\n".toList) ++ "\r\n".toList

/-- The first line of a request. -/
def requestLine (parsed : ParsedUrl) (req : HttpRequest) : CStr :=
  req.usedMethod ++ " ".toList ++ parsed.path ++ " HTTP/1.1".toList

def HttpHeader.line (h : HttpHeader) : CStr := h.name ++ ": ".toList ++ h.value

/-- The fields of a request: the client's own, the headers that are given, and how many bytes the
    body has.  A header without a name is an entry that is not in use. -/
def requestFields (parsed : ParsedUrl) (req : HttpRequest) : List HttpHeader :=
  [⟨"Host".toList, parsed.host⟩, ⟨"Connection".toList, "close".toList⟩,
    ⟨"User-Agent".toList, "SecureOS/1.0".toList⟩]
  ++ req.extraHeaders.filter (·.name ≠ [])
  ++ if req.body = [] then [] else [⟨"Content-Length".toList, Nat.toDigits 10 req.body.length⟩]

/-- The lines of a request with these fields. -/
def requestLines (parsed : ParsedUrl) (req : HttpRequest) (fields : List HttpHeader) : List CStr :=
  requestLine parsed req :: fields.map HttpHeader.line

/-- A method and a path that make a line of three words. -/
def IsRequestLine (method path : CStr) : Prop :=
  (∀ c ∈ method, c ∉ [' ', '\t', '\r', '\n'])
    ∧ path.head? = some '/' ∧ ∀ c ∈ path, c ∉ [' ', '\t', '\r', '\n']

/-- The field has this name, which is in small letters. -/
def HttpHeader.isNamed (h : HttpHeader) (name : CStr) : Bool := h.name.map Char.toLower = name

/-- The text is a number, perhaps with blanks around it. -/
def States (n : Nat) (text : CStr) : Prop :=
  ∃ before digits after, text = before ++ digits ++ after
    ∧ (∀ c ∈ before ++ after, c ∈ [' ', '\t'])
    ∧ digits ≠ [] ∧ (∀ c ∈ digits, c.isDigit) ∧ decimal digits = n

/-- A field of a request with a body of `n` bytes: it is one line with one name, and what it says of
    the length of the body is right. -/
structure IsField (n : Nat) (h : HttpHeader) : Prop where
  name : h.name ≠ [] ∧ ∀ c ∈ h.name, c ∉ [':', ' ', '\t', '\r', '\n']
  value : ∀ c ∈ h.value, c ∉ ['\r', '\n']
  length : h.isNamed "content-length".toList → States n h.value
  coding : h.isNamed "transfer-encoding".toList = false

/-- **A COMPLETE REQUEST**: a request line, fields with every given header among them, an empty line
    and the whole body, whose length no field contradicts; one field names the host. -/
def IsRequest (parsed : ParsedUrl) (req : HttpRequest) (bytes : CStr) : Prop :=
  IsRequestLine req.usedMethod parsed.path
    ∧ ∃ fields, bytes = head (requestLines parsed req fields) ++ req.body
      ∧ (∀ f ∈ fields, IsField req.body.length f)
      ∧ fields.countP (·.isNamed "host".toList) = 1 ∧ requestFields parsed req <+ fields

/-- The header block of the request. -/
def requestHead (parsed : ParsedUrl) (req : HttpRequest) : CStr :=
  head (requestLines parsed req (requestFields parsed req))

/-- The method, the path, the host and the given headers can stand in a request, and all fits the
    buffer. -/
structure Fits (parsed : ParsedUrl) (req : HttpRequest) : Prop where
  line : IsRequestLine req.usedMethod parsed.path
  host : ∀ c ∈ parsed.host, c ∉ ['\r', '\n']
  headers : ∀ h ∈ req.extraHeaders, h.name ≠ [] →
    IsField req.body.length h ∧ h.isNamed "host".toList = false
  head : (requestHead parsed req).length < reqBufSize
  whole : (requestHead parsed req).length + req.body.length ≤ reqBufSize

theorem foldl_httpAppend (pieces : List CStr) (x : CStr) :
    pieces.foldl httpAppend (x.take (reqBufSize - 1))
      = (x ++ pieces.flatten).take (reqBufSize - 1) := by
  induction pieces generalizing x with
  | nil => simp
  | cons piece pieces ih =>
    have hstep : httpAppend (x.take (reqBufSize - 1)) piece
        = (x ++ piece).take (reqBufSize - 1) := by
      rw [httpAppend, take_append, length_take]
      congr 2
      omega
    rw [foldl_cons, hstep, ih, flatten_cons, append_assoc]

variable (parsed : ParsedUrl) (req : HttpRequest)

/-- The pieces make up the request. -/
theorem flatten_requestPieces (hbody : req.body.length < 2 ^ 32) :
    (requestPieces parsed req).flatten = requestHead parsed req := by
  have hheaders : ∀ hs : List HttpHeader, (hs.flatMap (fun h =>
      if h.name = [] then [] else [h.name, ": ".toList, h.value, "\r\n".toList])).flatten
        = ((hs.filter (·.name ≠ [])).map HttpHeader.line).flatMap (· ++ "\r\n".toList) := by
    intro hs
    induction hs with
    | nil => rfl
    | cons h hs ih =>
      rw [flatMap_cons, flatten_append, ih, filter_cons]
      by_cases hname : h.name = []
      · simp [hname]
      · simp [hname, HttpHeader.line]
  have hlen : (UInt32.ofNat req.body.length).toNat = req.body.length :=
    UInt32.toNat_ofNat_of_lt hbody
  simp only [requestPieces, requestHead, requestLines, requestFields, head, flatten_append,
    hheaders, hlen]
  by_cases h : req.body = []
  · simp [h, requestLine, HttpHeader.line]
  · simp [h, requestLine, HttpHeader.line]

/-- The length that the client writes is the one of the body. -/
theorem lengthField_ok (n : Nat) :
    IsField n ⟨"Content-Length".toList, Nat.toDigits 10 n⟩ where
  name := by simp
  value := by
    intro c hc hmem
    have hdigit := Nat.isDigit_of_mem_toDigits (by decide) (by decide) hc
    have hlines : ∀ c ∈ ['\r', '\n'], c.isDigit = false := by simp
    rw [hlines c hmem] at hdigit
    cases hdigit
  length _ := ⟨[], _, [], by simp, by simp, Nat.toDigits_ne_nil,
    fun _ hc => Nat.isDigit_of_mem_toDigits (by decide) (by decide) hc,
    Nat.ofDigitChars_toDigits (by decide) (by decide)⟩
  coding := rfl

/-- The fields of a request whose given headers can stand in it. -/
theorem fields_ok (h : Fits parsed req) : ∀ f ∈ requestFields parsed req,
    IsField req.body.length f := by
  intro f hf
  simp only [requestFields, mem_append, mem_cons, not_mem_nil, or_false, mem_filter,
    decide_eq_true_eq] at hf
  -- none of the first three is the length
  have hno : ¬ false = true := Bool.false_ne_true
  rcases hf with ((rfl | rfl | rfl) | hf) | hf
  · exact ⟨by simp, h.host, fun hn => absurd hn hno, rfl⟩
  · exact ⟨by simp, by simp, fun hn => absurd hn hno, rfl⟩
  · exact ⟨by simp, by simp, fun hn => absurd hn hno, rfl⟩
  · exact (h.headers f hf.1 hf.2).1
  · split_ifs at hf
    · exact absurd hf not_mem_nil
    · exact mem_singleton.mp hf ▸ lengthField_ok _

/-- Besides the client's own field, only given headers can name the host. -/
theorem countP_host : (requestFields parsed req).countP (·.isNamed "host".toList)
    = 1 + (req.extraHeaders.filter (·.name ≠ [])).countP (·.isNamed "host".toList) := by
  rw [requestFields, countP_append, countP_append]
  split_ifs
  · rfl
  · rfl

theorem complete_iff : IsRequest parsed req (buildRequest parsed req) ↔ Fits parsed req := by
  have hbuf : (requestPieces parsed req).foldl httpAppend []
      = (requestPieces parsed req).flatten.take (reqBufSize - 1) := foldl_httpAppend _ []
  simp only [IsRequest, buildRequest, hbuf]
  constructor
  · rintro ⟨hline, fields, hbytes, hfields, hhost, hsub⟩
    have hlong : (requestHead parsed req).length
        ≤ (head (requestLines parsed req fields)).length :=
      ((((hsub.map HttpHeader.line).cons_cons _).flatMap (· ++ "\r\n".toList)).append_right
        _).length_le
    have hlen := congrArg length hbytes
    simp only [length_append, length_take, reqBufSize] at hlen
    rw [flatten_requestPieces parsed req (by omega)] at hlen
    have hcount := hsub.countP_le (p := fun f => f.isNamed "host".toList)
    rw [hhost, countP_host] at hcount
    have hnone : (req.extraHeaders.filter (·.name ≠ [])).countP (·.isNamed "host".toList) = 0 := by
      omega
    refine ⟨hline, (hfields _ (hsub.subset (mem_append_left _ mem_cons_self))).value,
      fun h hh hname => ?_, ?_, ?_⟩
    · have hmem : h ∈ req.extraHeaders.filter (·.name ≠ []) :=
        mem_filter.mpr ⟨hh, decide_eq_true hname⟩
      refine ⟨hfields h (hsub.subset (mem_append_left _ (mem_append_right _ hmem))), ?_⟩
      exact eq_false_of_ne_true (countP_eq_zero.mp hnone h hmem)
    · rw [reqBufSize]
      omega
    · rw [reqBufSize]
      omega
  · intro h
    have hhead := h.head
    have hwhole := h.whole
    have hnone : (req.extraHeaders.filter (·.name ≠ [])).countP (·.isNamed "host".toList) = 0 := by
      refine countP_eq_zero.mpr fun f hf => ?_
      have hmem := mem_filter.mp hf
      rw [(h.headers f hmem.1 (of_decide_eq_true hmem.2)).2]
      exact Bool.false_ne_true
    rw [flatten_requestPieces parsed req (by rw [reqBufSize] at hwhole; omega)]
    refine ⟨h.line, _, ?_, fields_ok parsed req h, by rw [countP_host, hnone], Sublist.refl _⟩
    rw [take_of_length_le (by omega), take_of_length_le (by omega)]
    rfl

/-- The two parsers agree on every URL that is delegated. -/
theorem httpsParseUrl_eq (h : (httpParseUrl url).2) : httpsParseUrl url = (httpParseUrl url).1 := by
  fun_cases httpParseUrl url <;> simp_all [httpParseUrl, httpsParseUrl]

/-- **A REQUEST THAT IS SENT IS COMPLETE** exactly if it fits, over any connection. -/
theorem request_complete_iff (tcpSend tlsSend : CStr → Bool) :
    ((∀ bytes, httpRequest tcpSend tlsSend req = some bytes →
          IsRequest (httpParseUrl req.url).1 req bytes)
        ↔ httpRequest tcpSend tlsSend req = none ∨ Fits (httpParseUrl req.url).1 req)
      ∧ ((∀ bytes, httpsRequest tlsSend req = some bytes →
          IsRequest (httpsParseUrl req.url) req bytes)
        ↔ httpsRequest tlsSend req = none ∨ Fits (httpsParseUrl req.url) req) := by
  have hiff : ∀ {sent parsed}, sent = none ∨ sent = some (buildRequest parsed req) →
      ((∀ bytes, sent = some bytes → IsRequest parsed req bytes)
        ↔ sent = none ∨ Fits parsed req) := by
    rintro _ parsed (rfl | rfl)
    · simp
    · simp [complete_iff]
  have hfilter : ∀ (send : CStr → Bool) bytes,
      (some bytes).filter send = none ∨ (some bytes).filter send = some bytes := by
    intro send bytes
    cases h : send bytes <;> simp [Option.filter, h]
  have hhttps : httpsRequest tlsSend req = none
      ∨ httpsRequest tlsSend req = some (buildRequest (httpsParseUrl req.url) req) := by
    rw [httpsRequest]
    split
    · exact hfilter _ _
    · exact .inl rfl
  refine ⟨hiff ?_, hiff hhttps⟩
  simp only [httpRequest]
  split_ifs with _ h
  · exact .inl rfl
  · exact httpsParseUrl_eq h ▸ hhttps
  · exact hfilter _ _

/-- A body longer than the buffer. -/
def longPost : HttpRequest := ⟨some "POST".toList, some "https://h".toList, [], replicate 4096 'x'⟩

/-- A header that ends the header block. -/
def headerGet : HttpRequest :=
  ⟨none, some "http://h".toList, [⟨['X'], "\r\n\r\n".toList⟩, ⟨['Y'], []⟩], []⟩

/-- The body is cut, and over a connection that takes no more than 1464 bytes a header is lost. -/
theorem request_cut : (∃ bytes, httpsRequest (fun _ => true) longPost = some bytes
      ∧ ¬ IsRequest (httpsParseUrl longPost.url) longPost bytes)
    ∧ ∃ bytes, httpRequest (·.length ≤ 1464) (fun _ => false) headerGet = some bytes
      ∧ ¬ IsRequest (httpParseUrl headerGet.url).1 headerGet bytes := by
  refine ⟨⟨_, rfl, fun h => ?_⟩, ⟨buildRequest (httpParseUrl headerGet.url).1 headerGet,
    by decide +kernel, fun h => ?_⟩⟩
  · have hwhole := ((complete_iff _ _).mp h).whole
    have hbody : longPost.body.length = 4096 := length_replicate
    rw [requestHead, head, length_append, hbody, reqBufSize] at hwhole
    simp at hwhole
  · have hfield := ((complete_iff _ _).mp h).headers _ mem_cons_self (by decide)
    exact hfield.1.value '\r' (by simp) (by simp)

end Netlib
