import Mizan.Daemon.Request

namespace Mizan.Daemon

structure ClientRequest where
  url : String
  method : String
  headers : List (String × Option String)
  body : List UInt8
  deriving DecidableEq, Repr

def ClientRequest.header (request : ClientRequest) (name : String) : Option String :=
  (request.headers.find? fun header => header.1 = name).bind (·.2)

-- The HTTP libraries of both sides: what the server is handed of a request, where one arrives.
abbrev Transport := ClientRequest → Option DaemonRequest

-- A URL as far as its authority: a host with or without a port, and no user information. The
-- characters that are left out end an authority or are dropped from a URL.
structure Origin where
  scheme : String
  authority : String
  scheme_free : ':' ∉ scheme.toList
  authority_free : ∀ c ∈ authority.toList, c ∉ ['/', '\\', '?', '#', '@', '\t', '\n', '\r']
  authority_ne_empty : authority ≠ ""

def Origin.url (origin : Origin) : String := origin.scheme ++ "://" ++ origin.authority

-- Nothing to encode, and no dot segment to resolve.
def isPlain (c : Char) : Bool := c.isAlphanum || c == '-' || c == '/'

structure PlainPath (path : String) : Prop where
  absolute : ∃ rest, path.toList = '/' :: rest
  plain : ∀ c ∈ path.toList, isPlain c = true

def isVisible (c : Char) : Bool := 0x20 < c.toNat && c.toNat < 0x7F

-- Visible characters, with blanks between them only.
structure HeaderText (value : String) : Prop where
  visible : ∀ c ∈ value.toList, isVisible c = true ∨ c = ' '
  first : value.toList.head? ≠ some ' '
  last : value.toList.getLast? ≠ some ' '

def SIGNED_HEADERS : List String :=
  [AUTHORIZATION, DAEMON_SIGNATURE_TIMESTAMP_HEADER, DAEMON_SIGNATURE_NONCE_HEADER,
    DAEMON_SIGNATURE_BODY_HASH_HEADER, DAEMON_SIGNATURE_HEADER]

-- Other headers may come with it.
structure Carries (request : ClientRequest) (path : String) (received : DaemonRequest) : Prop where
  method : received.method = request.method
  path : received.path = path
  headers : ∀ name ∈ SIGNED_HEADERS, ∀ value, request.header name = some value →
    HeaderText value → received.header name = some value
  body : received.body = request.body

-- What is relied on: a plain path behind an origin arrives as it is, with what the client has set.
def Transport.Faithful (transport : Transport) : Prop :=
  ∀ (origin : Origin) (path : String) request received, PlainPath path →
    request.url = origin.url ++ path → transport request = some received →
      Carries request path received

theorem headerText_of_visible {value : String} (h : ∀ c ∈ value.toList, isVisible c = true) :
    HeaderText value := by
  have hblank : ' ' ∉ value.toList := by
    intro hmem
    exact absurd (h ' ' hmem) (by decide)
  refine ⟨fun c hc => .inl (h c hc), fun hfirst => ?_, fun hlast => ?_⟩
  · exact hblank (List.mem_of_mem_head? hfirst)
  · exact hblank (List.mem_of_mem_getLast? hlast)

theorem headerText_bearer {token : String} (hsome : token ≠ "")
    (h : ∀ c ∈ token.toList, isVisible c = true) : HeaderText ("Bearer " ++ token) := by
  have hchars : ("Bearer " ++ token).toList =
      ['B', 'e', 'a', 'r', 'e', 'r', ' '] ++ token.toList := String.toList_append
  refine ⟨fun c hc => ?_, ?_, ?_⟩
  · rw [hchars, List.mem_append] at hc
    rcases hc with hc | hc
    · simp only [List.mem_cons, List.not_mem_nil, or_false] at hc
      rcases hc with rfl | rfl | rfl | rfl | rfl | rfl | rfl <;> decide
    · exact .inl (h c hc)
  · rw [hchars, List.cons_append, List.head?_cons]
    decide
  · have hne : token.toList ≠ [] := fun hnil => hsome (String.toList_eq_nil_iff.mp hnil)
    rw [hchars, List.getLast?_append_of_ne_nil _ hne, List.getLast?_eq_some_getLast hne]
    intro hblank
    have hvisible := h _ (List.getLast_mem hne)
    rw [Option.some.inj hblank] at hvisible
    exact absurd hvisible (by decide)

section Plain

-- A request as it arrives under a path, where no library adds a header.
def ClientRequest.arrived (request : ClientRequest) (path : String) : DaemonRequest :=
  { method := request.method, path, headers := request.headers, body := request.body }

-- What the client makes of the user information of a URL, for the one pair that is used below.
def userInfoHeaders (authority : List Char) : Option (List (String × Option String)) :=
  if '@' ∉ authority then some []
  else if (authority.takeWhile fun c => c ≠ '@') = "user:pw".toList then
    some [(AUTHORIZATION, some "Basic dXNlcjpwdw==")]
  else none

-- A transport for URLs in which nothing has to be encoded, resolved or dropped.
def plainTransport (request : ClientRequest) : Option DaemonRequest :=
  let behindScheme := (request.url.toList.dropWhile fun c => c ≠ ':').drop 3
  let authority := behindScheme.takeWhile fun c => c ≠ '/' ∧ c ≠ '?' ∧ c ≠ '#'
  let path := (behindScheme.drop authority.length).takeWhile fun c => c ≠ '?' ∧ c ≠ '#'
  (userInfoHeaders authority).map fun headers =>
    { request with headers := headers ++ request.headers }.arrived
      (if path = [] then "/" else String.ofList path)

variable {origin : Origin} {path : List Char}

theorem behindScheme_origin (origin : Origin) (path : List Char) :
    ((origin.url ++ String.ofList path).toList.dropWhile fun c => c ≠ ':').drop 3 =
      origin.authority.toList ++ path := by
  have hchars : (origin.url ++ String.ofList path).toList =
      origin.scheme.toList ++ ':' :: '/' :: '/' :: (origin.authority.toList ++ path) := by
    simp [Origin.url, String.toList_append]
  rw [hchars, List.dropWhile_append_of_pos]
  · simp
  · intro c hc
    have hne : c ≠ ':' := fun heq => origin.scheme_free (heq ▸ hc)
    simpa using hne

theorem takeWhile_authority (origin : Origin) (path : List Char) :
    (origin.authority.toList ++ '/' :: path).takeWhile (fun c => c ≠ '/' ∧ c ≠ '?' ∧ c ≠ '#') =
      origin.authority.toList := by
  rw [List.takeWhile_append_of_pos]
  · simp
  · intro c hc
    have hfree := origin.authority_free c hc
    simp only [List.mem_cons, not_or] at hfree
    simp [hfree]

theorem takeWhile_plain (h : ∀ c ∈ path, isPlain c = true) :
    path.takeWhile (fun c => c ≠ '?' ∧ c ≠ '#') = path := by
  rw [List.takeWhile_eq_self_iff]
  intro c hc
  have hplain := h c hc
  have hne : c ≠ '?' ∧ c ≠ '#' := by
    constructor
    · rintro rfl
      exact absurd hplain (by decide)
    · rintro rfl
      exact absurd hplain (by decide)
  simpa using hne

theorem plainTransport_origin {request : ClientRequest} {path : String} (hpath : PlainPath path)
    (hurl : request.url = origin.url ++ path) : plainTransport request = request.arrived path := by
  obtain ⟨rest, hrest⟩ := hpath.absolute
  have hpiece : String.ofList ('/' :: rest) = path := by rw [← hrest, String.ofList_toList]
  have hplain := hpath.plain
  rw [hrest] at hplain
  have hhost : userInfoHeaders origin.authority.toList = some [] := by
    rw [userInfoHeaders, if_pos]
    intro hmem
    exact origin.authority_free '@' hmem (by decide)
  rw [← hpiece] at hurl ⊢
  simp only [plainTransport, hurl, behindScheme_origin, takeWhile_authority, hhost,
    List.drop_left, takeWhile_plain hplain, Option.map_some, if_neg (List.cons_ne_nil _ _)]
  rfl

theorem plainTransport_faithful : Transport.Faithful plainTransport := by
  intro origin path request received hpath hurl hreceived
  rw [plainTransport_origin hpath hurl] at hreceived
  obtain rfl := Option.some.inj hreceived
  exact ⟨rfl, rfl, fun _ _ _ hheader _ => hheader, rfl⟩

end Plain

end Mizan.Daemon
