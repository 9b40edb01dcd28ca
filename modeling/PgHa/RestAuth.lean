import Mathlib.Data.List.Basic
import PgHa.Base64

/-!
The routes of the REST API and the basic authentication before the management ones
(`pg-ha-api/src/routes`), and the credentials that the command line client sends
(`pg-ha-ctl/src/credentials.rs`).
-/

namespace PgHa.RestAuth

open Text Base64

/-- `String::into_bytes`. -/
def intoBytes (text : Str) : List UInt8 := text.flatMap String.utf8EncodeChar

/-- `String::from_utf8`. -/
def fromUtf8 (bytes : List UInt8) : Option Str :=
  (ByteArray.mk bytes.toArray).utf8Decode?.map Array.toList

/-- `HeaderValue::to_str`: visible ASCII and tabs. -/
def toStr (bytes : List UInt8) : Option Str :=
  if bytes.all fun byte => byte == 9 || (32 ≤ byte && byte < 127) then
    some (bytes.map fun byte => Char.ofNat byte.toNat)
  else none

/-- `split_once`. -/
def splitOnce (separator : Char) (text : Str) : Option (Str × Str) :=
  (afterFirst separator text).map fun rest => (text.takeWhile (· != separator), rest)

theorem intoBytes_utf8Encode (text : Str) :
    (ByteArray.mk (intoBytes text).toArray) = text.utf8Encode := by
  rw [List.utf8Encode, intoBytes]
  apply ByteArray.ext
  simp

theorem fromUtf8_iff (bytes : List UInt8) (text : Str) :
    fromUtf8 bytes = some text ↔ bytes = intoBytes text := by
  constructor
  · intro decoded
    obtain ⟨chars, read, rfl⟩ := Option.map_eq_some_iff.mp decoded
    have whole := ByteArray.utf8Encode_get_utf8Decode? (b := ByteArray.mk bytes.toArray)
      (h := by rw [read]; rfl)
    simp only [read, Option.get_some] at whole
    rw [← intoBytes_utf8Encode] at whole
    have same := congrArg (fun array => array.data.toList) whole
    simpa using same.symm
  · rintro rfl
    rw [fromUtf8, intoBytes_utf8Encode, List.utf8Decode?_utf8Encode]
    simp

theorem splitOnce_iff (separator : Char) (text before after : Str) :
    splitOnce separator text = some (before, after) ↔
      separator ∉ before ∧ text = before ++ separator :: after := by
  constructor
  · intro split
    obtain ⟨rest, found, same⟩ := Option.map_eq_some_iff.mp split
    cases same
    refine ⟨?_, ?_⟩
    · intro inside
      simpa using List.mem_takeWhile_imp inside
    · unfold afterFirst at found
      cases left : text.dropWhile (· != separator) with
      | nil =>
          rw [left] at found
          cases found
      | cons head tail =>
          rw [left] at found
          cases found
          have stops := List.head_dropWhile_not (· != separator) (l := text) (by simp [left])
          have same : head = separator := by simpa [left] using stops
          rw [← same, ← left, same, List.takeWhile_append_dropWhile]
  · rintro ⟨absent, rfl⟩
    rw [splitOnce, afterFirst_append separator before after absent, Option.map_some]
    congr 2
    rw [List.takeWhile_append_of_pos]
    · simp
    · intro c member
      exact bne_iff_ne.mpr fun same => absent (same ▸ member)

theorem utf8EncodeChar_ascii {c : Char} (ascii : c.toNat ≤ 126) :
    String.utf8EncodeChar c = [UInt8.ofNat c.toNat] := by
  have small : c.toNat ≤ 127 := by omega
  simp [String.utf8EncodeChar, small]

/-- A header of visible ASCII is read as it was written. -/
theorem toStr_ascii {text : Str} (ascii : ∀ c ∈ text, 32 ≤ c.toNat ∧ c.toNat ≤ 126) :
    toStr (intoBytes text) = some text := by
  have bytes : intoBytes text = text.map fun c => UInt8.ofNat c.toNat := by
    rw [List.map_eq_flatMap]
    exact List.flatMap_congr fun c member => utf8EncodeChar_ascii (ascii c member).2
  have back : ∀ c ∈ text, (UInt8.ofNat c.toNat).toNat = c.toNat := by
    intro c member
    have := ascii c member
    rw [UInt8.toNat_ofNat']
    omega
  have all : (intoBytes text).all (fun byte => byte == 9 || (32 ≤ byte && byte < 127)) =
      true := by
    rw [bytes, List.all_map, List.all_eq_true]
    intro c member
    have bounds := ascii c member
    have same := back c member
    simp only [Function.comp_apply, Bool.or_eq_true, Bool.and_eq_true, decide_eq_true_eq,
      UInt8.le_iff_toNat_le, UInt8.lt_iff_toNat_lt, same]
    right
    exact ⟨bounds.1, by have : (127 : UInt8).toNat = 127 := rfl; omega⟩
  rw [toStr, if_pos all, bytes, List.map_map]
  congr 1
  calc text.map ((fun byte : UInt8 => Char.ofNat byte.toNat) ∘ fun c => UInt8.ofNat c.toNat)
      = text.map id := by
        apply List.map_congr_left
        intro c member
        simp only [Function.comp_apply, back c member, Char.ofNat_toNat, id_eq]
    _ = text := List.map_id text

/-! ### Routes -/

inductive Method where
  | get
  | head
  | post
  | put
  | patch
  | delete
  | other
  deriving DecidableEq

inductive Handler where
  | healthPrimary
  | healthReplica
  | healthCheck
  | liveness
  | healthStandbyLeader
  | healthSync
  | healthAsync
  | nodeStatus
  | getCluster
  | getMetrics
  | getHistory
  | postSwitchover
  | deleteSwitchover
  | postFailover
  | postRestart
  | reinitializeNode
  | getConfig
  | putConfig
  | patchConfigEndpoint
  deriving DecidableEq

/-- All of these answer GET. -/
def healthRoutes : List (String × Handler) :=
  [("/primary", .healthPrimary), ("/", .healthPrimary), ("/read-write", .healthPrimary),
    ("/replica", .healthReplica), ("/health", .healthCheck), ("/liveness", .liveness),
    ("/standby-leader", .healthStandbyLeader), ("/synchronous", .healthSync),
    ("/sync", .healthSync), ("/asynchronous", .healthAsync), ("/async", .healthAsync),
    ("/patroni", .nodeStatus), ("/cluster", .getCluster), ("/metrics", .getMetrics),
    ("/history", .getHistory)]

def mgmtRoutes : List (String × List (Method × Handler)) :=
  [("/switchover", [(.post, .postSwitchover), (.delete, .deleteSwitchover)]),
    ("/failover", [(.post, .postFailover)]),
    ("/restart", [(.post, .postRestart)]),
    ("/reinitialize", [(.post, .reinitializeNode)]),
    ("/config", [(.get, .getConfig), (.put, .putConfig), (.patch, .patchConfigEndpoint)])]

/-- A handler for GET answers HEAD too. -/
def Method.routed : Method → Method
  | .head => .get
  | method => method

/-- What stands under a path and a method, and whether behind the authentication. -/
def routed (path : String) (method : Method) : Option (Handler × Bool) :=
  match healthRoutes.lookup path with
  | some handler => if method.routed = .get then some (handler, false) else none
  | none =>
      ((mgmtRoutes.lookup path).bind (List.lookup method.routed)).map fun handler => (handler, true)

def isManagement (path : String) : Bool := (mgmtRoutes.lookup path).isSome

/-! ### Authentication -/

structure AuthConfig where
  username : Option Str
  password : Option Str

def AuthConfig.isEnabled (auth : AuthConfig) : Bool := auth.username.isSome && auth.password.isSome

variable (engine : Engine)

/-- The test of `basic_auth_middleware` on the `Authorization` header. -/
def authorized (expectedUser expectedPass : Str) (header : Option (List UInt8)) : Bool :=
  match header.bind toStr with
  | none => false
  | some value =>
      match value.dropPrefix? "Basic ".toList with
      | some encoded =>
          (((engine.decode (trim encoded)).bind fromUtf8).bind (splitOnce ':')).any
            fun (user, pass) => user == expectedUser && pass == expectedPass
      | none =>
          match value.dropPrefix? "Bearer ".toList with
          | some token =>
              trim token == engine.encode (intoBytes (expectedUser ++ ':' :: expectedPass))
          | none => false

def basicAuthMiddleware (auth : AuthConfig) (header : Option (List UInt8)) : Bool :=
  if auth.isEnabled then authorized engine (auth.username.getD []) (auth.password.getD []) header
  else true

structure Request where
  method : Method
  path : String
  authorization : Option (List UInt8)

/-- `fallback` is the router's own answer to what no route takes. -/
inductive Reply where
  | run (handler : Handler)
  | unauthorized
  | fallback
  deriving DecidableEq

/-- The layer around the management routes covers the fallback under their paths as well. -/
def dispatch (auth : AuthConfig) (request : Request) : Reply :=
  if isManagement request.path && !basicAuthMiddleware engine auth request.authorization then
    .unauthorized
  else
    match routed request.path request.method with
    | some (handler, _) => .run handler
    | none => .fallback

/-- A header with the credentials: under `Bearer` always, under `Basic` unless the name has
a colon. -/
def Credited (user pass : Str) (header : Option (List UInt8)) : Prop :=
  ∃ token, trim token = engine.encode (intoBytes (user ++ ':' :: pass)) ∧
    (header.bind toStr = some ("Bearer ".toList ++ token) ∨
      (header.bind toStr = some ("Basic ".toList ++ token) ∧ ':' ∉ user))

def Admitted (auth : AuthConfig) (header : Option (List UInt8)) : Prop :=
  ∀ user pass, auth.username = some user → auth.password = some pass →
    Credited engine user pass header

theorem dropPrefix_append (front rest : Str) : (front ++ rest).dropPrefix? front = some rest :=
  List.dropPrefix?_eq_some_iff.mpr ⟨front, rfl, BEq.rfl⟩

theorem dropPrefix_some {text front rest : Str} (dropped : text.dropPrefix? front = some rest) :
    text = front ++ rest := by
  obtain ⟨same, whole, equal⟩ := List.dropPrefix?_eq_some_iff.mp dropped
  rw [whole, beq_iff_eq.mp equal]

/-- The two schemes differ at their second letter. -/
theorem basic_not_bearer (first second : Str) : "Basic ".toList ++ first ≠ "Bearer ".toList ++
    second := by
  intro same
  have letters := congrArg (fun text : Str => text[1]?) same
  revert letters
  simp

/-- What the Basic branch accepts. -/
theorem basic_accepts (user pass encoded : Str) :
    ((((engine.decode (trim encoded)).bind fromUtf8).bind (splitOnce ':')).any
      fun (name, word) => name == user && word == pass) = true ↔
      trim encoded = engine.encode (intoBytes (user ++ ':' :: pass)) ∧ ':' ∉ user := by
  constructor
  · intro accepted
    rw [Option.any_eq_true] at accepted
    obtain ⟨⟨name, word⟩, split, matched⟩ := accepted
    obtain ⟨text, decoded, split⟩ := Option.bind_eq_some_iff.mp split
    obtain ⟨bytes, read, decoded⟩ := Option.bind_eq_some_iff.mp decoded
    simp only [Bool.and_eq_true, beq_iff_eq] at matched
    obtain ⟨rfl, rfl⟩ := matched
    obtain ⟨plain, rfl⟩ := (splitOnce_iff _ _ _ _).mp split
    rw [fromUtf8_iff] at decoded
    subst decoded
    exact ⟨(engine.decode_iff _ _).mp read, plain⟩
  · rintro ⟨token, plain⟩
    have read := (engine.decode_iff _ _).mpr token
    have text := (fromUtf8_iff (intoBytes (user ++ ':' :: pass)) _).mpr rfl
    have split := (splitOnce_iff ':' (user ++ ':' :: pass) user pass).mpr ⟨plain, rfl⟩
    simp [read, text, split]

theorem authorized_iff (user pass : Str) (header : Option (List UInt8)) :
    authorized engine user pass header = true ↔ Credited engine user pass header := by
  unfold authorized Credited
  cases header.bind toStr with
  | none => simp
  | some value =>
      simp only [Option.some.injEq]
      cases basic : value.dropPrefix? "Basic ".toList with
      | some encoded =>
          have whole := dropPrefix_some basic
          simp only [basic_accepts]
          constructor
          · rintro ⟨token, plain⟩
            exact ⟨encoded, token, .inr ⟨whole, plain⟩⟩
          · rintro ⟨token, holds, bearer | ⟨same, plain⟩⟩
            · exact absurd (whole.symm.trans bearer) (basic_not_bearer _ _)
            · have equal : encoded = token := List.append_cancel_left (whole.symm.trans same)
              exact ⟨equal ▸ holds, plain⟩
      | none =>
          have notBasic : ∀ token, value ≠ "Basic ".toList ++ token := by
            rintro token rfl
            rw [dropPrefix_append] at basic
            cases basic
          cases bearer : value.dropPrefix? "Bearer ".toList with
          | some encoded =>
              have whole := dropPrefix_some bearer
              simp only [beq_iff_eq]
              constructor
              · intro token
                exact ⟨encoded, token, .inl whole⟩
              · rintro ⟨token, holds, same | ⟨same, _⟩⟩
                · have equal : encoded = token := List.append_cancel_left (whole.symm.trans same)
                  exact equal ▸ holds
                · exact absurd same (notBasic token)
          | none =>
              simp only [Bool.false_eq_true, false_iff]
              rintro ⟨token, _, rfl | ⟨same, _⟩⟩
              · rw [dropPrefix_append] at bearer
                cases bearer
              · exact notBasic token same

theorem basicAuthMiddleware_iff (auth : AuthConfig) (header : Option (List UInt8)) :
    basicAuthMiddleware engine auth header = true ↔ Admitted engine auth header := by
  obtain ⟨username, password⟩ := auth
  unfold basicAuthMiddleware Admitted AuthConfig.isEnabled
  cases username with
  | none => simp
  | some user =>
      cases password with
      | none => simp
      | some pass => simp [authorized_iff]

theorem routed_management {path : String} {method : Method} {handler : Handler} {managed : Bool}
    (found : routed path method = some (handler, managed)) : isManagement path = managed := by
  unfold routed at found
  cases open_ : healthRoutes.lookup path with
  | some other =>
      rw [open_] at found
      have apart : ∀ entry ∈ healthRoutes, isManagement entry.1 = false := by decide
      have listed : (path, other) ∈ healthRoutes := by
        obtain ⟨front, back, split, _⟩ := List.lookup_eq_some_iff.mp open_
        simp [split]
      simp only at found
      split at found
      · cases found
        exact apart _ listed
      · cases found
  | none =>
      rw [open_] at found
      obtain ⟨_, inside, same⟩ := Option.map_eq_some_iff.mp found
      obtain ⟨_, there, _⟩ := Option.bind_eq_some_iff.mp inside
      cases same
      rw [isManagement, there]
      rfl

/-- A handler runs for exactly the requests routed to it, those behind the authentication
only with the credentials. -/
theorem handler_runs_iff (auth : AuthConfig) (request : Request) (handler : Handler) :
    dispatch engine auth request = .run handler ↔
      ∃ managed, routed request.path request.method = some (handler, managed) ∧
        (managed = true → Admitted engine auth request.authorization) := by
  rw [← basicAuthMiddleware_iff]
  unfold dispatch
  cases found : routed request.path request.method with
  | none =>
      simp only [reduceCtorEq, false_and, exists_false, iff_false]
      split <;> simp
  | some route =>
      obtain ⟨other, managed⟩ := route
      have behind := routed_management found
      simp only [behind, Option.some.injEq, Prod.mk.injEq]
      cases managed with
      | false => simp
      | true =>
          cases basicAuthMiddleware engine auth request.authorization <;> simp

/-! ### The command line client -/

structure Credentials where
  username : Str
  password : Str

inductive CredentialError where
  | missingUsername
  | missingPassword

def nonempty (value : Option Str) : Option Str := value.filter fun text => text ≠ []

/-- A flag before the environment, where it is not empty. -/
def chosen (flag env : Option Str) : Option Str := (nonempty flag).or (nonempty env)

def resolveCredentials (flagUsername flagPassword envUsername envPassword : Option Str) :
    Except CredentialError (Option Credentials) :=
  match chosen flagUsername envUsername, chosen flagPassword envPassword with
  | none, none => .ok none
  | some _, none => .error .missingPassword
  | none, some _ => .error .missingUsername
  | some username, some password => .ok (some ⟨username, password⟩)

/-- The header that the HTTP client's `basic_auth` sends. -/
structure HttpClient where
  basicAuth : Str → Str → List UInt8
  basicAuth_eq : ∀ username password, basicAuth username password =
    intoBytes ("Basic ".toList ++ engine.encode (intoBytes (username ++ ':' :: password)))

variable {engine} (client : HttpClient engine)

def HttpClient.applyBasicAuth (creds : Option Credentials) : Option (List UInt8) :=
  creds.map fun creds => client.basicAuth creds.username creds.password

/-- A request of the client that it sends, to a server with this configuration. -/
def ctlAdmitted (auth : AuthConfig)
    (flagUsername flagPassword envUsername envPassword : Option Str) :
    Bool :=
  match resolveCredentials flagUsername flagPassword envUsername envPassword with
  | .error _ => false
  | .ok creds => basicAuthMiddleware engine auth (client.applyBasicAuth creds)

theorem toStr_basicAuth (username password : Str) :
    toStr (client.basicAuth username password) =
      some ("Basic ".toList ++ engine.encode (intoBytes (username ++ ':' :: password))) := by
  have graphic : ∀ c ∈ "Basic ".toList, 32 ≤ c.toNat ∧ c.toNat ≤ 126 := by simp
  rw [client.basicAuth_eq]
  apply toStr_ascii
  intro c member
  rcases List.mem_append.mp member with scheme | token
  · exact graphic c scheme
  · have graphic := engine.encode_graphic _ c token
    exact ⟨by omega, graphic.2⟩

theorem intoBytes_injective {first second : Str} (same : intoBytes first = intoBytes second) :
    first = second := by
  have read := (fromUtf8_iff (intoBytes first) first).mpr rfl
  rw [(fromUtf8_iff (intoBytes first) second).mpr same, Option.some.injEq] at read
  exact read.symm

/-- What the client sends has the credentials of the server when both join to one text and
the server's name has no colon. -/
theorem credited_basicAuth (user pass username password : Str) :
    Credited engine user pass (some (client.basicAuth username password)) ↔
      ':' ∉ user ∧ username ++ ':' :: password = user ++ ':' :: pass := by
  unfold Credited
  simp only [Option.bind_some, toStr_basicAuth, Option.some.injEq]
  constructor
  · rintro ⟨token, holds, bearer | ⟨same, plain⟩⟩
    · exact absurd bearer (basic_not_bearer _ _)
    · have equal := List.append_cancel_left same
      rw [← equal, engine.trim_encode] at holds
      exact ⟨plain, intoBytes_injective (engine.encode_injective holds)⟩
  · rintro ⟨plain, joined⟩
    refine ⟨_, engine.trim_encode _, .inr ⟨?_, plain⟩⟩
    rw [joined]

/-- The client gets past the authentication with no credentials where there is none, and
otherwise with a name and a password that join to those of the server. -/
theorem ctl_admitted_iff (auth : AuthConfig)
    (flagUsername flagPassword envUsername envPassword : Option Str) :
    ctlAdmitted client auth flagUsername flagPassword envUsername envPassword = true ↔
      ((chosen flagUsername envUsername).isSome = (chosen flagPassword envPassword).isSome ∧
        ∀ user pass, auth.username = some user → auth.password = some pass →
          ':' ∉ user ∧ ∃ username password,
            chosen flagUsername envUsername = some username ∧
            chosen flagPassword envPassword = some password ∧
            username ++ ':' :: password = user ++ ':' :: pass) := by
  unfold ctlAdmitted resolveCredentials
  cases chosen flagUsername envUsername with
  | none =>
      cases chosen flagPassword envPassword with
      | none =>
          simp [basicAuthMiddleware_iff, Admitted, Credited, HttpClient.applyBasicAuth]
      | some password => simp
  | some username =>
      cases chosen flagPassword envPassword with
      | none => simp
      | some password =>
          simp [basicAuthMiddleware_iff, Admitted, HttpClient.applyBasicAuth, credited_basicAuth]

def standardClient : HttpClient standard where
  basicAuth username password :=
    intoBytes ("Basic ".toList ++ standard.encode (intoBytes (username ++ ':' :: password)))
  basicAuth_eq _ _ := rfl

def adminAuth : AuthConfig := ⟨some "admin".toList, some "s3cret".toList⟩

/-- The name as a flag and the password from the environment. -/
theorem ctl_admitted_admin :
    ctlAdmitted standardClient adminAuth (some "admin".toList) none none (some "s3cret".toList) =
      true := by
  refine (ctl_admitted_iff standardClient adminAuth _ none none _).mpr ⟨rfl, ?_⟩
  rintro user pass ⟨⟩ ⟨⟩
  exact ⟨by decide, _, _, rfl, rfl, rfl⟩

end PgHa.RestAuth
