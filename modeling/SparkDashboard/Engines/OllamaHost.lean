import SparkDashboard.Engines.Common
import SparkDashboard.Library.IpAddr

/-!
# Where an Ollama server listens

The value of `OLLAMA_HOST` becomes a scheme, a host, a port and a path; the dashboard
reaches the server at the endpoint made of the host and the port. An endpoint read as a
value of `OLLAMA_HOST` is that endpoint again.
-/

namespace SparkDashboard.Engines

open SparkDashboard.Library Chars

/-- Rust's `str::parse::<i32>`. -/
def parseI32 (text : Text) : Option Int :=
  let signed := text.head? = some '-' ∨ text.head? = some '+'
  let digits := if signed then text.tail else text
  if digits ≠ [] ∧ digits.all Char.isDigit then
    let value : Int := if text.head? = some '-' then -natOf digits else natOf digits
    if -2147483648 ≤ value ∧ value < 2147483648 then some value else none
  else none

def u16TryFrom (n : Int) : Option UInt16 := if 0 ≤ n ∧ n < 65536 then some (.ofNat n.toNat) else none

/-- A host containing a colon is bracketed. -/
def joinHostPort (host : Text) (port : UInt16) : Text :=
  if ':' ∈ host then '[' :: host ++ ']' :: ':' :: decimal port.toNat
  else host ++ ':' :: decimal port.toNat

/-- The host, and from where on an opening and a closing bracket are stray. -/
def hostBefore (colon : Nat) (hostport : Text) : Option (Text × Nat × Nat) :=
  if hostport.head? = some '[' then
    (hostport.idxOf? ']').bind fun stop =>
      if stop + 1 ≠ colon then none else some ((hostport.take stop).drop 1, 1, stop + 1)
  else if ':' ∈ hostport.take colon then none
  else some (hostport.take colon, 0, 0)

def splitHostPort (hostport : Text) : Option (Text × Text) :=
  (rfind ':' hostport).bind fun colon =>
  (hostBefore colon hostport).bind fun found =>
    if '[' ∈ hostport.drop found.2.1 ∨ ']' ∈ hostport.drop found.2.2 then none
    else some (found.1, hostport.drop (colon + 1))

def canonicalIp : IpAddr → Text
  | .v6 v6 =>
    match v6.toIpv4Mapped with
    | some v4 => v4.toText
    | none => v6.toText
  | .v4 v4 => v4.toText

def localhost : Text := "127.0.0.1".toList

structure OllamaHost where
  scheme : Text
  host : Text
  port : UInt16
  path : Text
  deriving DecidableEq

namespace OllamaHost

def defaultPort : UInt16 := 11434

def isQuote (c : Char) : Bool := "\"'".toList.contains c

def trimmed (value : Option Text) : Text :=
  trimMatches isWhitespace (trimMatches isQuote (trimMatches isWhitespace (value.getD [])))

structure Address where
  scheme : Text
  hostport : Text
  defaultPort : UInt16

def address (s : Text) : Address :=
  match splitOnce "://".toList s with
  | none =>
    if s = "ollama.com".toList then ⟨"https".toList, "ollama.com:443".toList, defaultPort⟩
    else ⟨"http".toList, s, defaultPort⟩
  | some (scheme, hostport) =>
    if scheme = "http".toList then ⟨scheme, hostport, 80⟩
    else if scheme = "https".toList then ⟨scheme, hostport, 443⟩
    else ⟨scheme, hostport, defaultPort⟩

def hostAndPort (hostport : Text) : Text × Text :=
  match splitHostPort hostport with
  | some parts => parts
  | none =>
    match IpAddr.parse (trimMatches isBracket hostport) with
    | some ip => (canonicalIp ip, [])
    | none => (if hostport ≠ [] then hostport else localhost, [])

def portOr (default : UInt16) (port : Text) : UInt16 := ((parseI32 port).bind u16TryFrom).getD default

def fromEnv (value : Option Text) : OllamaHost :=
  let address := address (trimmed value)
  let parts := (splitOnce ['/'] address.hostport).getD (address.hostport, [])
  let found := hostAndPort parts.1
  ⟨address.scheme, found.1, portOr address.defaultPort found.2, parts.2⟩

def isEveryInterface (host : Text) : Bool := host.isEmpty || (IpAddr.parse host).any IpAddr.isUnspecified

/-- A server bound to every interface is probed on the local one. -/
def endpoint (self : OllamaHost) : Text :=
  let host := if isEveryInterface self.host then localhost else self.host
  "http://".toList ++ joinHostPort host self.port

end OllamaHost

theorem not_mem_decimal {c : Char} (h : c.isDigit = false) (n : Nat) : c ∉ decimal n := by
  intro hmem
  rw [isDigit_of_mem_decimal hmem] at h
  cases h

theorem splitHostPort_bracketed {host port : Text} (hopen : '[' ∉ host) (hclose : ']' ∉ host) (hopen' : '[' ∉ port)
    (hclose' : ']' ∉ port) (hcolon : ':' ∉ port) :
    splitHostPort ('[' :: host ++ ']' :: ':' :: port) = some (host, port) := by
  have hcut : '[' :: host ++ ']' :: ':' :: port = ('[' :: host ++ [']']) ++ ':' :: port := by simp
  have hfind : rfind ':' ('[' :: host ++ ']' :: ':' :: port) = some (host.length + 2) := by
    rw [hcut, rfind_append hcolon]
    simp
  have hstop : ('[' :: host ++ ']' :: ':' :: port).idxOf? ']' = some (host.length + 1) := by
    apply idxOf?_append
    simp [hclose]
  have hbefore : hostBefore (host.length + 2) ('[' :: host ++ ']' :: ':' :: port) =
      some (host, 1, host.length + 2) := by
    have hhead : ('[' :: host ++ ']' :: ':' :: port).head? = some '[' := rfl
    rw [hostBefore, if_pos hhead, hstop]
    simp
  rw [splitHostPort, hfind, Option.bind_some, hbefore, Option.bind_some, if_neg]
  · simp
  · simp [hopen, hopen', hclose']

theorem splitHostPort_plain {host port : Text} (hopen : '[' ∉ host) (hclose : ']' ∉ host) (hhost : ':' ∉ host)
    (hopen' : '[' ∉ port) (hclose' : ']' ∉ port) (hcolon : ':' ∉ port) :
    splitHostPort (host ++ ':' :: port) = some (host, port) := by
  have hhead : (host ++ ':' :: port).head? ≠ some '[' := by
    cases host with
    | nil => simp
    | cons c host =>
      intro h
      cases h
      exact hopen List.mem_cons_self
  have hbefore : hostBefore host.length (host ++ ':' :: port) = some (host, 0, 0) := by
    rw [hostBefore, if_neg hhead]
    simp [hhost]
  rw [splitHostPort, rfind_append hcolon, Option.bind_some, hbefore, Option.bind_some, if_neg]
  · simp
  · simp [hopen, hclose, hopen', hclose']

theorem splitHostPort_joinHostPort {host : Text} (hopen : '[' ∉ host) (hclose : ']' ∉ host) (port : UInt16) :
    splitHostPort (joinHostPort host port) = some (host, decimal port.toNat) := by
  have hopen' : '[' ∉ decimal port.toNat := not_mem_decimal (by decide) _
  have hclose' : ']' ∉ decimal port.toNat := not_mem_decimal (by decide) _
  have hcolon : ':' ∉ decimal port.toNat := not_mem_decimal (by decide) _
  rw [joinHostPort]
  by_cases hhost : ':' ∈ host
  · rw [if_pos hhost]
    exact splitHostPort_bracketed hopen hclose hopen' hclose' hcolon
  · rw [if_neg hhost]
    exact splitHostPort_plain hopen hclose hhost hopen' hclose' hcolon

theorem mem_of_hostBefore {colon : Nat} {hostport : Text} {found : Text × Nat × Nat}
    (h : hostBefore colon hostport = some found) : ∀ c ∈ found.1, c ∈ hostport := by
  intro c hc
  rw [hostBefore] at h
  split at h
  · obtain ⟨stop, _, hstop⟩ := Option.bind_eq_some_iff.mp h
    split at hstop
    · cases hstop
    · cases hstop
      exact List.mem_of_mem_take (List.mem_of_mem_drop hc)
  · split at h
    · cases h
    · cases h
      exact List.mem_of_mem_take hc

theorem mem_of_splitHostPort {hostport : Text} {parts : Text × Text} (h : splitHostPort hostport = some parts) :
    ∀ c ∈ parts.1, c ∈ hostport := by
  obtain ⟨colon, _, h⟩ := Option.bind_eq_some_iff.mp h
  obtain ⟨found, hfound, h⟩ := Option.bind_eq_some_iff.mp h
  split at h
  · cases h
  · cases h
    exact mem_of_hostBefore hfound

theorem slash_not_mem_canonicalIp (ip : IpAddr) : '/' ∉ canonicalIp ip := by
  cases ip with
  | v4 ip => exact ip.slash_not_mem_toText
  | v6 ip =>
    rw [canonicalIp]
    split
    · exact Ipv4Addr.slash_not_mem_toText _
    · exact ip.slash_not_mem_toText

namespace OllamaHost

theorem slash_not_mem_hostAndPort {hostport : Text} (h : '/' ∉ hostport) : '/' ∉ (hostAndPort hostport).1 := by
  rw [hostAndPort]
  split
  · rename_i parts hparts
    exact fun hmem => h (mem_of_splitHostPort hparts _ hmem)
  · split
    · exact slash_not_mem_canonicalIp _
    · dsimp only
      split
      · exact h
      · decide

theorem slash_not_mem_host (value : Option Text) : '/' ∉ (fromEnv value).host := by
  apply slash_not_mem_hostAndPort
  cases hsplit : splitOnce ['/'] (address (trimmed value)).hostport with
  | some parts => exact (splitOnce_eq_some hsplit).1
  | none => exact splitOnce_eq_none_iff.mp hsplit

theorem exists_joinHostPort (host : Text) (port : UInt16) :
    ∃ front, joinHostPort host port = front ++ decimal port.toNat := by
  rw [joinHostPort]
  split
  · exact ⟨'[' :: host ++ [']', ':'], by simp⟩
  · exact ⟨host ++ [':'], by simp⟩

theorem isDigit_of_getLast?_decimal {front : Text} {n : Nat} {c : Char} (h : (front ++ decimal n).getLast? = some c) :
    c.isDigit = true := by
  rw [List.getLast?_append_of_ne_nil front (decimal_ne_nil n)] at h
  exact isDigit_of_mem_decimal (List.mem_of_getLast? h)

theorem isQuote_of_isDigit {c : Char} (h : c.isDigit = true) : isQuote c = false := by
  cases hquote : isQuote c with
  | false => rfl
  | true =>
    have hmem : c ∈ "\"'".toList := by simpa [isQuote] using hquote
    have hnone : "\"'".toList.all (fun c => !c.isDigit) = true := by decide
    have hc := List.all_eq_true.mp hnone c hmem
    rw [h] at hc
    cases hc

theorem trimmed_endpoint (host : Text) (port : UInt16) :
    trimmed (some ("http://".toList ++ joinHostPort host port)) = "http://".toList ++ joinHostPort host port := by
  obtain ⟨front, hfront⟩ := exists_joinHostPort host port
  have hlast : ∀ c, ("http://".toList ++ joinHostPort host port).getLast? = some c → c.isDigit = true := by
    intro c hc
    rw [hfront, ← List.append_assoc] at hc
    exact isDigit_of_getLast?_decimal hc
  have hspace : trimMatches isWhitespace ("http://".toList ++ joinHostPort host port) =
      "http://".toList ++ joinHostPort host port := by
    apply trimMatches_eq_self
    · intro c hc
      cases hc
      decide
    · exact fun c hc => isWhitespace_of_isDigit (hlast c hc)
  have hquote : trimMatches isQuote ("http://".toList ++ joinHostPort host port) =
      "http://".toList ++ joinHostPort host port := by
    apply trimMatches_eq_self
    · intro c hc
      cases hc
      decide
    · exact fun c hc => isQuote_of_isDigit (hlast c hc)
  rw [trimmed, Option.getD_some, hspace, hquote, hspace]

theorem address_http (rest : Text) : address ("http://".toList ++ rest) = ⟨"http".toList, rest, 80⟩ := by
  have hsplit : splitOnce "://".toList ("http://".toList ++ rest) = some ("http".toList, rest) := by
    simp [splitOnce, List.dropPrefix?]
  rw [address, hsplit]
  rfl

theorem parseI32_decimal {n : Nat} (h : n < 2147483648) : parseI32 (decimal n) = some (n : Int) := by
  have hunsigned : ¬((decimal n).head? = some '-' ∨ (decimal n).head? = some '+') := by
    rintro (hhead | hhead)
    · exact not_mem_decimal (by decide) n (List.mem_of_head? hhead)
    · exact not_mem_decimal (by decide) n (List.mem_of_head? hhead)
  have hdigits : decimal n ≠ [] ∧ (decimal n).all Char.isDigit = true :=
    ⟨decimal_ne_nil n, List.all_eq_true.mpr fun c hc => isDigit_of_mem_decimal hc⟩
  rw [parseI32, if_neg hunsigned]
  dsimp only
  rw [if_pos hdigits, if_neg (fun hminus => hunsigned (.inl hminus)), natOf_decimal, if_pos (by omega)]

theorem portOr_decimal (default port : UInt16) : portOr default (decimal port.toNat) = port := by
  have hlt : port.toNat < 65536 := port.toNat_lt
  rw [portOr, parseI32_decimal (by omega), Option.bind_some, u16TryFrom, if_pos (by omega)]
  simp

theorem fromEnv_endpoint {host : Text} (hopen : '[' ∉ host) (hclose : ']' ∉ host) (hslash : '/' ∉ host)
    (port : UInt16) :
    fromEnv (some ("http://".toList ++ joinHostPort host port)) = ⟨"http".toList, host, port, []⟩ := by
  have hjoin : '/' ∉ joinHostPort host port := by
    have hdecimal : '/' ∉ decimal port.toNat := not_mem_decimal (by decide) _
    rw [joinHostPort]
    split
    · simp [hslash, hdecimal]
    · simp [hslash, hdecimal]
  have hparts : hostAndPort (joinHostPort host port) = (host, decimal port.toNat) := by
    rw [hostAndPort, splitHostPort_joinHostPort hopen hclose]
  rw [fromEnv, trimmed_endpoint, address_http]
  dsimp only
  rw [splitOnce_eq_none_iff.mpr hjoin, Option.getD_none, hparts, portOr_decimal]

/-- The host of the endpoint. -/
def probed (self : OllamaHost) : Text := if isEveryInterface self.host then localhost else self.host

theorem isEveryInterface_probed (self : OllamaHost) : isEveryInterface self.probed = false := by
  rw [probed]
  split
  · decide
  · rename_i h
    simpa using h

theorem endpoint_eq (self : OllamaHost) : self.endpoint = "http://".toList ++ joinHostPort self.probed self.port := rfl

theorem fromEnv_endpoint_fromEnv {value : Option Text} (hopen : '[' ∉ (fromEnv value).host)
    (hclose : ']' ∉ (fromEnv value).host) :
    fromEnv (some (fromEnv value).endpoint) =
      ⟨"http".toList, (fromEnv value).probed, (fromEnv value).port, []⟩ := by
  rw [endpoint_eq, probed]
  split
  · exact fromEnv_endpoint (by decide) (by decide) (by decide) _
  · exact fromEnv_endpoint hopen hclose (slash_not_mem_host value) _

theorem endpoint_of_host {host : Text} (h : isEveryInterface host = false) (scheme : Text) (port : UInt16)
    (path : Text) : endpoint ⟨scheme, host, port, path⟩ = "http://".toList ++ joinHostPort host port := by
  have hne : ¬isEveryInterface host = true := Bool.eq_false_iff.mp h
  rw [endpoint_eq, probed]
  dsimp only
  rw [if_neg hne]

theorem isUnspecified_of_isEveryInterface {host : Text} (h : isEveryInterface host = false) {ip : IpAddr}
    (hip : IpAddr.parse host = some ip) : ip.isUnspecified = false := by
  simp only [isEveryInterface, hip, Option.any_some, Bool.or_eq_false_iff] at h
  exact h.2

end OllamaHost

open OllamaHost in
theorem ollamaHost_roundTrip :
    (∀ host port, '[' ∉ host → ']' ∉ host →
      splitHostPort (joinHostPort host port) = some (host, decimal port.toNat) ∧
        ∀ default, portOr default (decimal port.toNat) = port) ∧
    ∀ value, '[' ∉ (fromEnv value).host → ']' ∉ (fromEnv value).host →
      (fromEnv (some (fromEnv value).endpoint)).endpoint = (fromEnv value).endpoint ∧
      ∃ host port, (fromEnv value).endpoint = "http://".toList ++ joinHostPort host port ∧
        (fromEnv (some (fromEnv value).endpoint)).host = host ∧
        (fromEnv (some (fromEnv value).endpoint)).port = port ∧
        ∀ ip, IpAddr.parse host = some ip → ip.isUnspecified = false := by
  constructor
  · intro host port hopen hclose
    exact ⟨splitHostPort_joinHostPort hopen hclose port, fun default => portOr_decimal default port⟩
  · intro value hopen hclose
    have hagain := fromEnv_endpoint_fromEnv hopen hclose
    have hevery := isEveryInterface_probed (fromEnv value)
    simp only [hagain]
    refine ⟨?_, (fromEnv value).probed, (fromEnv value).port, endpoint_eq (fromEnv value), rfl, rfl, ?_⟩
    · rw [endpoint_of_host hevery, endpoint_eq]
    · exact fun ip hip => isUnspecified_of_isEveryInterface hevery hip

open OllamaHost in
theorem ollamaHost_roundTrip_wildcard :
    splitHostPort (joinHostPort "fe80::1".toList 9000) = some ("fe80::1".toList, "9000".toList) ∧
    (fromEnv (some (fromEnv (some "[::]:8080".toList)).endpoint)).endpoint = "http://127.0.0.1:8080".toList :=
  ⟨(ollamaHost_roundTrip.1 "fe80::1".toList 9000 (by decide) (by decide)).1,
    (ollamaHost_roundTrip.2 (some "[::]:8080".toList) (by decide +kernel) (by decide +kernel)).1.trans
      (by decide +kernel)⟩

end SparkDashboard.Engines
