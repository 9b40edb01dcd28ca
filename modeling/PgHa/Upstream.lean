import PgHa.LatestTimeline
import PgHa.StandbyConfig

/-!
The address of an upstream: the `conn_url` that `touch_member` (helpers.rs) publishes, and
what is read back from it and from the standby configuration written with it, by
standby_config.rs, helpers.rs, follow.rs and main.rs.
-/

namespace PgHa.Upstream

open Text TextLines ConfFile StandbyConfig
open LatestTimeline (decimal)

/-! ### Addresses -/

def parseU16 (text : Str) : Option Nat := (fromStrRadix 10 text).filter (· < 2 ^ 16)

/-- The text before the last colon. -/
def hostText (addr : Str) : Str := (beforeLast ':' addr).getD addr

/-- `SocketAddr::from_str` and the lookup of a name both read the text after the last colon
as the port; `finds` is what they make of the text before it. -/
def resolveAddr {Address : Type} (finds : Str → Nat → Option Address) (addr : Str) :
    Option Address :=
  (beforeLast ':' addr).bind fun host =>
    (parseU16 (addr.drop (host.length + 1))).bind fun port => finds host port

/-- An address of IPv6 stands in brackets. -/
def unbracket : Str → Str
  | '[' :: rest => if rest.getLast? = some ']' then rest.dropLast else '[' :: rest
  | text => text

/-- The host of an address. -/
def hostPart (addr : Str) : Str := unbracket (hostText addr)

/-! ### What is published -/

def reachableHost (selfAddr : Str) : Str :=
  (selfAddr.splitOn ':').head?.getD "127.0.0.1".toList

/-- The database and user of `touch_member`'s connection string. -/
def superuserText (superuser : ConnectionParams) : Str :=
  "dbname=".toList ++ libpqQuote superuser.dbname ++ " user=".toList ++
    libpqQuote superuser.username

def connUrl (selfAddr : Str) (port : Nat) (superuser : ConnectionParams) : Str :=
  "host=".toList ++ libpqQuote (reachableHost selfAddr) ++ " port=".toList ++ decimal port ++
    " ".toList ++ superuserText superuser

/-! ### What is read back -/

def hostKey : String := "host="

/-- The first word with a key. -/
def firstWith (key : String) (text : Str) : Option Str :=
  ((splitWhitespace text).find? fun word => key.toList.isPrefixOf word).bind (stripFront key)

/-- The upstream's host as `follow_upstream` reads it. -/
def expectedHost (connUrl : Str) : Str := (firstWith hostKey connUrl).getD []

/-- The text after the first occurrence of a key: `find`, and the slice after it. -/
def afterKey (key : Str) : Str → Option Str
  | [] => none
  | c :: rest =>
      if key.isPrefixOf (c :: rest) then some ((c :: rest).drop key.length) else afterKey key rest

def parsePgHostPort (connUrl : Str) : Option (Str × Nat) :=
  if (afterKey hostKey.toList connUrl).isNone then none
  else
    (firstWith hostKey connUrl).map fun host =>
      (host, ((firstWith "port=" connUrl).bind parseU16).getD 5432)

def trimMatches (c : Char) (text : Str) : Str := (text.dropWhile (· == c)).rdropWhile (· == c)

/-- The host that a line of `postgresql.auto.conf` names. -/
def lineHost (line : Str) : Option Str :=
  let trimmed := trim line
  if conninfoKey.isPrefixOf trimmed then
    (afterKey hostKey.toList trimmed).bind fun afterHost =>
      let host := trimMatches '"' (trimMatches '\'' ((splitWhitespace afterHost).head?.getD []))
      if host.isEmpty then none else some host
  else none

def readCurrentUpstream (content : Str) : Option Str := (lines content).findSome? lineHost

def needsUpstreamReconfig (current : Option Str) (expectedHost : Str) : Bool :=
  !expectedHost.isEmpty && current != some expectedHost

/-- The new `postgresql.auto.conf`; a missing one counts as empty. -/
def writeStandbyConfig (existing : Str) (upstreamConnUrl : Option Str)
    (replication : ConnectionParams)
    (name : Str) : Str :=
  let upstream := upstreamConnUrl.bind fun url =>
    (buildPrimaryConninfo url replication name).bind fun conninfo =>
      (connUrlHostPort url).map fun hostPort => (conninfo, hostPort)
  rewriteAutoConf existing (upstream.map Prod.fst)

/-! ### The address -/

theorem beforeLast_colon {addr host : Str} (before : beforeLast ':' addr = some host) :
    ∃ port, addr = host ++ ':' :: port := by
  simp only [beforeLast, Option.map_eq_some_iff, afterFirst] at before
  obtain ⟨rest, found, rfl⟩ := before
  have whole := List.takeWhile_append_dropWhile (p := (· != ':')) (l := addr.reverse)
  cases left : addr.reverse.dropWhile (· != ':') with
  | nil =>
      rw [left] at found
      cases found
  | cons c more =>
      rw [left] at found whole
      have stops := List.head_dropWhile_not (· != ':')
        (show addr.reverse.dropWhile (· != ':') ≠ [] by simp [left])
      have colon : c = ':' := by simpa [left] using stops
      have same : more = rest := Option.some.inj found
      refine ⟨(addr.reverse.takeWhile (· != ':')).reverse, ?_⟩
      have turned := congrArg List.reverse whole
      rw [List.reverse_reverse, colon, same] at turned
      exact turned.symm.trans (by simp)

theorem resolved_split {Address : Type} {finds : Str → Nat → Option Address} {addr : Str}
    (accepted : (resolveAddr finds addr).isSome) : ∃ port,
    addr = hostText addr ++ ':' :: port := by
  rw [resolveAddr] at accepted
  cases before : beforeLast ':' addr with
  | none =>
      rw [before] at accepted
      cases accepted
  | some host =>
      rw [hostText, before]
      exact beforeLast_colon before

theorem mem_unbracket {c : Char} (inside : c ≠ '[' ∧ c ≠ ']') (text : Str) :
    c ∈ unbracket text ↔ c ∈ text := by
  fun_cases unbracket text with
  | case1 rest closed =>
      rw [← List.dropLast_append_getLast? _ closed]
      simp [inside.1, inside.2]
  | case2 => rfl
  | case3 => rfl

theorem reachableHost_colon (front back : Str) (single : ':' ∉ front) :
    reachableHost (front ++ ':' :: back) = front := by
  rw [reachableHost, List.splitOn_append_cons_self_of_not_mem single]
  rfl

/-- The published host is the address's exactly if the text before the last colon has no
other colon and no brackets. -/
theorem reachableHost_iff {addr port : Str} (split : addr = hostText addr ++ ':' :: port) :
    reachableHost addr = hostPart addr ↔
      ':' ∉ hostText addr ∧ unbracket (hostText addr) = hostText addr := by
  rw [hostPart]
  generalize hostText addr = host at split ⊢
  subst split
  by_cases colon : ':' ∈ host
  · obtain ⟨front, back, rfl, single⟩ := List.eq_append_cons_of_mem colon
    have reached : reachableHost (front ++ ':' :: back ++ ':' :: port) = front := by
      rw [List.append_assoc, List.cons_append]
      exact reachableHost_colon front _ single
    rw [reached]
    constructor
    · intro same
      have kept := (mem_unbracket (by decide) (front ++ ':' :: back)).mpr colon
      rw [← same] at kept
      exact absurd kept single
    · rintro ⟨plain, _⟩
      exact absurd colon plain
  · rw [reachableHost_colon host port colon]
    constructor
    · intro same
      exact ⟨colon, same.symm⟩
    · rintro ⟨_, same⟩
      exact same.symm

/-! ### The words of the published text -/

def visible (c : Char) : Bool := !isWhitespace c

/-- The hosts that the database name and the user name bring along. -/
def superuserHosts (superuser : ConnectionParams) : List Str :=
  (splitWhitespace (superuserText superuser)).filterMap (stripFront hostKey)

theorem takeWhile_blank (text back : Str) :
    (text ++ ' ' :: back).takeWhile visible = text.takeWhile visible := by
  rw [List.takeWhile_append]
  split
  · rename_i whole
    rw [List.takeWhile_cons_of_neg (by decide), List.append_nil]
    exact ((List.takeWhile_prefix _).eq_of_length whole).symm
  · rfl

theorem connUrl_shape (selfAddr : Str) (port : Nat) (superuser : ConnectionParams) :
    connUrl selfAddr port superuser =
      ("host=".toList ++ libpqQuote (reachableHost selfAddr)) ++
        ' ' :: (("port=".toList ++ decimal port) ++ ' ' :: superuserText superuser) := by
  unfold connUrl
  generalize decimal port = digits
  generalize libpqQuote (reachableHost selfAddr) = quoted
  generalize superuserText superuser = back
  simp

theorem firstWith_front {key : String} (filled : key.toList ≠ [])
    (plain : ∀ c ∈ key.toList, visible c = true) (text back : Str) :
    firstWith key ((key.toList ++ text) ++ ' ' :: back) = some (text.takeWhile visible) := by
  have starts : ∀ front tail : Str, front.isPrefixOf (front ++ tail) = true := by
    intro front tail
    simp
  unfold firstWith stripFront
  generalize key.toList = front at filled plain ⊢
  cases front with
  | nil => exact absurd rfl filled
  | cons c more =>
      have shown : isWhitespace c = false := by
        simpa [visible] using plain c List.mem_cons_self
      obtain ⟨others, words⟩ := splitWhitespace_first shown (more ++ text ++ ' ' :: back)
      have word : ((c :: more) ++ text ++ ' ' :: back).takeWhile visible =
          (c :: more) ++ text.takeWhile visible := by
        rw [takeWhile_blank, List.takeWhile_append_of_pos plain]
      have split : splitWhitespace ((c :: more) ++ text ++ ' ' :: back) =
          ((c :: more) ++ text.takeWhile visible) :: others := by
        rw [← word]
        exact words
      rw [split, List.find?_cons_of_pos (starts _ _), Option.bind_some, if_pos (starts _ _)]
      exact congrArg some List.drop_left

theorem firstHost_published (selfAddr : Str) (port : Nat) (superuser : ConnectionParams) :
    firstWith hostKey (connUrl selfAddr port superuser) =
      some ((libpqQuote (reachableHost selfAddr)).takeWhile visible) := by
  rw [connUrl_shape]
  have plain : hostKey.toList.all visible = true := by decide
  exact @firstWith_front hostKey (by decide) (List.all_eq_true.mp plain) _ _

/-- A value that is not quoted is one word. -/
theorem plain_visible {value : Str} (plain : ConnInfo.needsQuotes value = false) :
    value ≠ [] ∧ ∀ c ∈ value, isWhitespace c = false ∧ c ≠ '\'' ∧ c ≠ '\\' := by
  simp only [ConnInfo.needsQuotes, Bool.or_eq_false_iff, List.any_eq_false, Bool.or_eq_true, not_or,
    Bool.not_eq_true, beq_eq_false_iff_ne] at plain
  constructor
  · rintro rfl
    cases plain.1
  · intro c mem
    have here := plain.2 c mem
    exact ⟨here.1.1, here.1.2, here.2⟩

theorem takeWhile_visible {text : Str} (all : ∀ c ∈ text, isWhitespace c = false) :
    text.takeWhile visible = text := by
  rw [List.takeWhile_eq_self_iff]
  intro c mem
  simp [visible, all c mem]

theorem escape_length (value : Str) : value.length ≤ (ConnInfo.escape value).length := by
  induction value with
  | nil => exact Nat.le_refl 0
  | cons c rest ih =>
      rw [ConnInfo.escape, List.flatMap_cons, List.length_append, List.length_cons,
        ← ConnInfo.escape]
      split
      · exact Nat.le_trans (Nat.succ_le_succ ih)
          (by simp only [List.length_cons, List.length_nil]; omega)
      · exact Nat.le_trans (Nat.succ_le_succ ih)
          (by simp only [List.length_cons, List.length_nil]; omega)

theorem mem_quote_blank {c : Char} (blank : isWhitespace c = true) {value : Str}
    (mem : c ∈ '\'' :: (ConnInfo.escape value ++ ['\''])) : c ∈ value := by
  have slash : c ≠ '\\' := by
    rintro rfl
    exact absurd blank (by decide)
  have mark : c ≠ '\'' := by
    rintro rfl
    exact absurd blank (by decide)
  exact (ConnInfo.mem_quoted slash mark).mp mem

/-- The first word of a value's text is the value only where the text is not quoted. -/
theorem firstWord_iff (value : Str) :
    (libpqQuote value).takeWhile visible = value ↔ ConnInfo.needsQuotes value = false := by
  rw [libpqQuote_eq, ConnInfo.quote]
  cases quotes : ConnInfo.needsQuotes value with
  | false =>
      obtain ⟨_, plain⟩ := plain_visible quotes
      have word := takeWhile_visible fun c mem => (plain c mem).1
      simpa using word
  | true =>
      have longer : ('\'' :: (ConnInfo.escape value ++ ['\''])).takeWhile visible ≠ value := by
        intro same
        have all : ∀ c ∈ value, isWhitespace c = false := by
          intro c mem
          rw [← same] at mem
          simpa [visible] using List.mem_takeWhile_imp mem
        have word : ('\'' :: (ConnInfo.escape value ++ ['\''])).takeWhile visible =
            '\'' :: (ConnInfo.escape value ++ ['\'']) := by
          refine takeWhile_visible fun c mem => ?_
          by_contra blank
          rw [Bool.not_eq_false] at blank
          have inside : c ∈ value := mem_quote_blank blank mem
          rw [all c inside] at blank
          cases blank
        have lengths := congrArg List.length (word.symm.trans same)
        have grows := escape_length value
        simp at lengths
        omega
      simp [longer]

theorem decimal_visible (n : Nat) : ∀ c ∈ decimal n, isWhitespace c = false :=
  readDigits_visible (readDigits_decimal n)

/-- The hosts among the words of the published text. -/
theorem hosts_published {selfAddr : Str}
    (plain : ConnInfo.needsQuotes (reachableHost selfAddr) = false)
    (port : Nat) (superuser : ConnectionParams) :
    (splitWhitespace (connUrl selfAddr port superuser)).filterMap (stripFront hostKey) =
      reachableHost selfAddr :: superuserHosts superuser := by
  have shown := (plain_visible plain).2
  have unquoted : libpqQuote (reachableHost selfAddr) = reachableHost selfAddr := by
    rw [libpqQuote_eq, ConnInfo.quote, plain]
    rfl
  rw [connUrl_shape, unquoted, superuserHosts]
  generalize reachableHost selfAddr = host at shown
  generalize superuserText superuser = back
  have hostWord : splitWhitespace ("host=".toList ++ host) = ["host=".toList ++ host] := by
    refine splitWhitespace_word (by simp) fun c mem => ?_
    rcases List.mem_append.mp mem with key | inside
    · exact visible_of_any (by decide : "host=".toList.any isWhitespace = false) c key
    · exact (shown c inside).1
  have portWord : splitWhitespace ("port=".toList ++ decimal port) =
      ["port=".toList ++ decimal port] := by
    refine splitWhitespace_word (by simp) fun c mem => ?_
    rcases List.mem_append.mp mem with key | inside
    · exact visible_of_any (by decide : "port=".toList.any isWhitespace = false) c key
    · exact decimal_visible port c inside
  have own : stripFront hostKey ("host=".toList ++ host) = some host := rfl
  have other : stripFront hostKey ("port=".toList ++ decimal port) = none := rfl
  rw [splitWhitespace_append (by decide), splitWhitespace_append (by decide), hostWord, portWord]
  simp only [List.filterMap_append, List.filterMap_cons, own, other, List.filterMap_nil]
  rfl

theorem connUrlHostPort_host (url : Str) :
    (connUrlHostPort url).map Prod.fst =
      ((splitWhitespace url).filterMap (stripFront hostKey)).getLast?.filter fun host =>
        !host.isEmpty := by
  unfold connUrlHostPort hostKey
  dsimp only
  cases ((splitWhitespace url).filterMap (stripFront "host=")).getLast?.filter fun host =>
    !host.isEmpty with
  | none => rfl
  | some host => rfl

/-- The last host counts for `conn_url_host_port`. -/
theorem connUrlHost_iff {selfAddr : Str}
    (plain : ConnInfo.needsQuotes (reachableHost selfAddr) = false)
    (port : Nat) (superuser : ConnectionParams) :
    (connUrlHostPort (connUrl selfAddr port superuser)).map Prod.fst =
      some (reachableHost selfAddr) ↔
      ∀ other, (superuserHosts superuser).getLast? = some other →
        other = reachableHost selfAddr := by
  have filled := (plain_visible plain).1
  rw [connUrlHostPort_host, hosts_published plain, List.getLast?_cons]
  generalize reachableHost selfAddr = host at filled
  cases (superuserHosts superuser).getLast? with
  | none => simp [Option.filter, filled]
  | some other =>
      by_cases same : other = host
      · simp [Option.filter, same, filled]
      · simp [Option.filter, same]

/-! ### The written line -/

theorem afterKey_front {c : Char} {front : Str} (absent : c ∉ front) (more back : Str) :
    afterKey (c :: more) (front ++ (c :: more ++ back)) = some back := by
  induction front with
  | nil => simp [afterKey]
  | cons head rest ih =>
      rw [List.mem_cons, not_or] at absent
      have other : (c :: more).isPrefixOf (head :: (rest ++ (c :: more ++ back))) = false := by
        simp [List.isPrefixOf, absent.1]
      rw [List.cons_append, afterKey, other]
      exact ih absent.2

/-- Trimming leaves a text alone that begins and ends with letters. -/
theorem trim_front {first last : Char} (starts : isWhitespace first = false)
    (ends : isWhitespace last = false) (middle back : Str) :
    ∃ tail, tail <+: back ∧
      trim (first :: (middle ++ last :: back)) = first :: (middle ++ last :: tail) := by
  rw [trim, List.dropWhile_cons_of_neg (by simp [starts])]
  induction back using List.reverseRecOn with
  | nil =>
      refine ⟨[], List.prefix_rfl, ?_⟩
      rw [← List.cons_append, List.rdropWhile_concat_neg]
      simp [ends]
  | append_singleton back c ih =>
      obtain ⟨tail, among, trimmed⟩ := ih
      have shape : first :: (middle ++ last :: (back ++ [c])) = first ::
          (middle ++ last :: back) ++ [c] := by
        simp
      rw [shape, List.rdropWhile_concat]
      split
      · exact ⟨tail, among.trans (List.prefix_append back [c]), trimmed⟩
      · exact ⟨back ++ [c], List.prefix_rfl, shape.symm⟩

theorem trimMatches_absent {c : Char} {text : Str} (absent : c ∉ text) :
    trimMatches c text = text := by
  have front : text.dropWhile (· == c) = text := by
    cases text with
    | nil => rfl
    | cons head rest =>
        rw [List.mem_cons, not_or] at absent
        exact List.dropWhile_cons_of_neg (by simp [Ne.symm absent.1])
  rw [trimMatches, front, List.rdropWhile_eq_self_iff]
  intro filled ends
  exact absent (beq_iff_eq.mp ends ▸ List.getLast_mem filled)

/-- The first word of what follows `host=` in the trimmed line. -/
theorem firstWord_trimmed {host : Str} (plain : ConnInfo.needsQuotes host = false) {back tail : Str}
    (among : tail <+: ' ' :: back) : (splitWhitespace (host ++ tail)).head? = some host := by
  obtain ⟨filled, shown⟩ := plain_visible plain
  have word := splitWhitespace_word filled fun c mem => (shown c mem).1
  cases tail with
  | nil => rw [List.append_nil, word, List.head?_cons]
  | cons c more =>
      have blank : c = ' ' := by
        obtain ⟨_, whole⟩ := among
        exact (List.cons.inj whole).1
      rw [blank, splitWhitespace_append (by decide), word]
      rfl

/-- The host that the written line names: the published one without double quotes around it. -/
theorem lineHost_own {host : Str} (plain : ConnInfo.needsQuotes host = false) (back : Str) :
    lineHost (settingOpen ++ (hostKey.toList ++ (host ++ ' ' :: back))) =
      if (trimMatches '"' host).isEmpty then none else some (trimMatches '"' host) := by
  obtain ⟨filled, shown⟩ := plain_visible plain
  obtain ⟨middle, last, rfl⟩ : ∃ middle last, host = middle ++ [last] :=
    ⟨_, _, (List.dropLast_append_getLast filled).symm⟩
  obtain ⟨opened, start⟩ : ∃ more, settingOpen = 'p' :: more := ⟨_, rfl⟩
  have key : hostKey.toList = 'h' :: "ost=".toList := by
    decide
  have named : conninfoKey <+: settingOpen := by
    decide
  have absent : 'h' ∉ settingOpen := by
    decide
  have noQuote : '\'' ∉ middle ++ [last] := fun mem => (shown _ mem).2.1 rfl
  obtain ⟨tail, among, trimmed⟩ := trim_front (by decide : isWhitespace 'p' = false)
    (shown last (by simp)).1 (opened ++ (hostKey.toList ++ middle)) (' ' :: back)
  have shape : ∀ rest, settingOpen ++ (hostKey.toList ++ (middle ++ [last] ++ rest)) =
      'p' :: (opened ++ (hostKey.toList ++ middle) ++ last :: rest) := by
    intro rest
    simp [start]
  rw [lineHost, shape, trimmed, ← shape, key]
  dsimp only
  rw [if_pos, afterKey_front absent, Option.bind_some, firstWord_trimmed plain among,
    Option.getD_some,
    trimMatches_absent noQuote]
  rw [List.isPrefixOf_iff_prefix]
  exact named.trans (List.prefix_append _ _)

/-- A host that is read stands without double quotes around it. -/
theorem lineHost_unquoted {line host : Str} (named : lineHost line = some host) :
    host.head? ≠ some '"' ∧ host.getLast? ≠ some '"' := by
  have trimmed : ∃ text, trimMatches '"' text = host ∧ host ≠ [] := by
    unfold lineHost at named
    dsimp only at named
    split at named
    · obtain ⟨after, _, read⟩ := Option.bind_eq_some_iff.mp named
      split at read
      · cases read
      · rename_i filled
        obtain rfl := Option.some.inj read
        exact ⟨_, rfl, by simpa using filled⟩
    · cases named
  obtain ⟨text, rfl, filled⟩ := trimmed
  rw [trimMatches] at filled ⊢
  constructor
  · intro quote
    obtain ⟨dropped, whole⟩ := List.rdropWhile_prefix (· == '"') (text.dropWhile (· == '"'))
    have opens : (text.dropWhile (· == '"')).head? = some '"' := by
      rw [← whole, List.head?_append, quote]
      rfl
    have stops := List.head?_dropWhile_not (· == '"') text
    rw [opens] at stops
    cases stops
  · intro quote
    have stops := List.rdropWhile_last_not (· == '"') _ filled
    rw [List.getLast?_eq_some_getLast filled] at quote
    rw [Option.some.inj quote] at stops
    exact stops rfl

/-! ### The written file -/

theorem trim_return (line : Str) : trim (stripSuffix '\r' line) = trim line := by
  cases line using List.reverseRecOn with
  | nil => rfl
  | append_singleton front last =>
      by_cases returns : last = '\r'
      · rw [returns, stripSuffix_concat]
        change (trimStart front).rdropWhile isWhitespace =
          (trimStart (front ++ ['\r'])).rdropWhile isWhitespace
        rcases trimStart_return front with longer | ⟨both, empty⟩
        · rw [longer, List.rdropWhile_concat_pos _ _ _ (by decide)]
        · rw [both, empty]
      · rw [(getLast?_stripSuffix '\r' _).mpr (by simp [returns])]

theorem lineHost_return (line : Str) : lineHost (stripSuffix '\r' line) = lineHost line := by
  rw [lineHost, trim_return, lineHost]

theorem escape_plain {value : Str} (plain : ConnInfo.needsQuotes value = false) :
    ConfFile.escape value = value := by
  have shown := (plain_visible plain).2
  have each : ∀ c ∈ value, (if c = '\\' ∨ c = '\'' then [c, c] else [c]) = [c] := by
    intro c mem
    rw [if_neg]
    rintro (slash | quote)
    · exact (shown c mem).2.2 slash
    · exact (shown c mem).2.1 quote
  rw [ConfFile.escape, List.flatMap_congr each]
  exact List.flatMap_pure_eq_map _ _ |>.trans (List.map_id _)

theorem openHost_whole {host : Str} (plain : ConnInfo.needsQuotes host = false) :
    '\n' ∉ settingOpen ++ (hostKey.toList ++ (host ++ [' '])) := by
  intro mem
  simp only [List.mem_append, List.mem_singleton] at mem
  rcases mem with start | key | inside | blank
  · exact settingOpen_whole start
  · exact absurd key (by decide)
  · have shown := ((plain_visible plain).2 _ inside).1
    revert shown
    decide
  · exact absurd blank (by decide)

/-- The written setting begins with the host as it is. -/
theorem ownText_openHost {host : Str} (plain : ConnInfo.needsQuotes host = false) (back : Str) :
    ∃ rest, ownText (hostKey.toList ++ (host ++ ' ' :: back)) =
      joinLines [pgHaHeader] ++ ((settingOpen ++ (hostKey.toList ++ (host ++ [' ']))) ++ rest) := by
  have key : ConfFile.escape hostKey.toList = hostKey.toList := by
    decide
  have blank : ConfFile.escape (' ' :: back) = ' ' :: ConfFile.escape back := rfl
  rw [ownText, settingLine_open, ConfFile.escape_append, ConfFile.escape_append, key, blank,
    escape_plain plain]
  generalize settingOpen = start
  generalize pgHaHeader = header
  generalize hostKey.toList = word
  exact ⟨ConfFile.escape back ++ '\'' :: '\n' :: (latestLine ++ ['\n']), by simp [joinLines]⟩

/-- The kept lines are read first, then the written one. -/
theorem read_written {host : Str} (plain : ConnInfo.needsQuotes host = false)
    (existing back : Str) :
    ∃ others, readCurrentUpstream
        (rewriteAutoConf existing (some (hostKey.toList ++ (host ++ ' ' :: back)))) =
      ((keptLines existing).findSome? lineHost).or
        ((if (trimMatches '"' host).isEmpty then none else some (trimMatches '"' host)).or
          others) := by
  obtain ⟨rest, written⟩ := ownText_openHost plain back
  obtain ⟨tail, below, first⟩ := fileLines_front (by simp) (openHost_whole plain) rest
  have header : lineHost pgHaHeader = none := by
    decide
  have shape : settingOpen ++ (hostKey.toList ++ (host ++ [' '])) ++ tail =
      settingOpen ++ (hostKey.toList ++ (host ++ ' ' :: tail)) := by
    simp
  have headerWhole : ∀ line ∈ [pgHaHeader], '\n' ∉ line := by
    intro line mem
    rw [List.mem_singleton.mp mem]
    exact pgHaHeader_whole
  refine ⟨below.findSome? lineHost, ?_⟩
  rw [readCurrentUpstream, findSome_lines lineHost_return, rewrite_some,
    fileLines_join (keptLines_whole existing), List.findSome?_append, written,
    fileLines_join headerWhole, first, shape, List.cons_append, List.nil_append,
      List.findSome?_cons,
    header]
  dsimp only
  rw [List.findSome?_cons, lineHost_own plain]
  cases (trimMatches '"' host).isEmpty <;> rfl

theorem conninfo_published {host port : Str} (plain : ConnInfo.needsQuotes host = false) {url : Str}
    (found : connUrlHostPort url = some (host, port)) (replication : ConnectionParams)
    (name : Str) :
    ∃ back, buildPrimaryConninfo url replication name =
      some (hostKey.toList ++ (host ++ ' ' :: back)) := by
  have has : connUrlHasHost url = true := by
    rw [connUrlHasHost, found]
    rfl
  obtain ⟨conninfo, built⟩ : ∃ conninfo,
      buildPrimaryConninfo url replication name = some conninfo := by
    rw [buildPrimaryConninfo, has, found]
    exact ⟨_, rfl⟩
  obtain ⟨_, _, again, rendered⟩ := buildPrimaryConninfo_some built
  obtain ⟨rfl, rfl⟩ := Prod.mk.inj (Option.some.inj (found.symm.trans again))
  have unquoted : ConnInfo.quote host = host := by
    rw [ConnInfo.quote, plain]
    rfl
  have key : hostKey.toList = "host".toList ++ ['='] := by
    decide
  refine ⟨ConnInfo.render (settings host port replication name).tail, ?_⟩
  rw [built, rendered, key, settings]
  simp only [ConnInfo.render, joinWith, List.cons_append, List.map_cons, List.tail_cons,
    List.intercalate_cons_cons, unquoted]
  simp

theorem written_published {host port : Str} {url : Str}
    (found : connUrlHostPort url = some (host, port))
    (existing : Str) (replication : ConnectionParams) (name : Str) :
    writeStandbyConfig existing (some url) replication name =
      rewriteAutoConf existing (buildPrimaryConninfo url replication name) := by
  rw [writeStandbyConfig, Option.bind_some, found]
  cases buildPrimaryConninfo url replication name <;> rfl

/-- The file names the host exactly if no kept line names another one and the host stands
without double quotes. -/
theorem read_settled_iff {host port url : Str} (plain : ConnInfo.needsQuotes host = false)
    (found : connUrlHostPort url = some (host, port)) (existing : Str)
    (replication : ConnectionParams)
    (name : Str) :
    readCurrentUpstream (writeStandbyConfig existing (some url) replication name) = some host ↔
      (host.head? ≠ some '"' ∧ host.getLast? ≠ some '"') ∧
        ∀ other, (keptLines existing).findSome? lineHost = some other → other = host := by
  obtain ⟨back, built⟩ := conninfo_published plain found replication name
  obtain ⟨others, read⟩ := read_written plain existing back
  rw [written_published found, built]
  constructor
  · intro settled
    constructor
    · obtain ⟨line, _, named⟩ := List.exists_of_findSome?_eq_some settled
      exact lineHost_unquoted named
    · intro other kept
      rw [read, kept] at settled
      exact Option.some.inj settled
  · rintro ⟨⟨head, last⟩, kept⟩
    rw [read]
    cases first : (keptLines existing).findSome? lineHost with
    | some other =>
        rw [kept other first]
        rfl
    | none =>
        have same : trimMatches '"' host = host := by
          have front : host.dropWhile (· == '"') = host := by
            cases host with
            | nil => rfl
            | cons c rest => exact List.dropWhile_cons_of_neg (by simpa using head)
          rw [trimMatches, front, List.rdropWhile_eq_self_iff]
          intro filled ends
          rw [List.getLast?_eq_some_getLast filled] at last
          exact last (congrArg some (beq_iff_eq.mp ends))
        rw [same]
        simp [(plain_visible plain).1]

/-! ### Convergence -/

/-- The readers of a published address agree, and a following replica is not reconfigured again. -/
structure Converges (selfAddr : Str) (port : Nat) (superuser : ConnectionParams) (existing : Str)
    (replication : ConnectionParams) (name : Str) : Prop where
  derived : reachableHost selfAddr = hostPart selfAddr
  upstream : (connUrlHostPort (connUrl selfAddr port superuser)).map Prod.fst =
    some (hostPart selfAddr)
  expected : expectedHost (connUrl selfAddr port superuser) = hostPart selfAddr
  proxied : (parsePgHostPort (connUrl selfAddr port superuser)).map Prod.fst =
    some (hostPart selfAddr)
  settled : needsUpstreamReconfig
    (readCurrentUpstream
      (writeStandbyConfig existing (some (connUrl selfAddr port superuser)) replication name))
    (expectedHost (connUrl selfAddr port superuser)) = false

/-- The inputs on which all readers agree. -/
structure Plain (selfAddr : Str) (superuser : ConnectionParams) (existing : Str) : Prop where
  /-- The address is a name or one of IPv4. -/
  single : ':' ∉ hostText selfAddr
  unbracketed : unbracket (hostText selfAddr) = hostText selfAddr
  /-- The host is not empty and has no blank, quote or backslash. -/
  bare : ConnInfo.needsQuotes (hostText selfAddr) = false
  unquoted : (hostText selfAddr).head? ≠ some '"' ∧ (hostText selfAddr).getLast? ≠ some '"'
  /-- The last `host=` word in the database and user names, if there is one, is this host. -/
  published : ∀ other, (superuserHosts superuser).getLast? = some other →
    other = hostText selfAddr
  /-- The first kept line that is read as an upstream, if there is one, names this host. -/
  kept : ∀ other, (keptLines existing).findSome? lineHost = some other →
    other = hostText selfAddr

theorem expectedHost_published (selfAddr : Str) (port : Nat) (superuser : ConnectionParams) :
    expectedHost (connUrl selfAddr port superuser) =
      (libpqQuote (reachableHost selfAddr)).takeWhile visible := by
  rw [expectedHost, firstHost_published]
  rfl

/-- The proxy reads the same word as `follow_upstream`. -/
theorem parsePgHostPort_published (selfAddr : Str) (port : Nat) (superuser : ConnectionParams) :
    (parsePgHostPort (connUrl selfAddr port superuser)).map Prod.fst =
      some (expectedHost (connUrl selfAddr port superuser)) := by
  have contained : (afterKey hostKey.toList (connUrl selfAddr port superuser)).isNone = false := by
    have key : hostKey.toList = 'h' :: "ost=".toList := by
      decide
    have start : ∃ back, connUrl selfAddr port superuser = [] ++ (hostKey.toList ++ back) := by
      rw [connUrl_shape, List.append_assoc]
      exact ⟨_, rfl⟩
    obtain ⟨back, start⟩ := start
    rw [start, key, afterKey_front (by simp)]
    rfl
  rw [parsePgHostPort, contained, expectedHost, firstHost_published]
  rfl

theorem needsUpstreamReconfig_iff {host : Str} (filled : host ≠ []) (current : Option Str) :
    needsUpstreamReconfig current host = false ↔ current = some host := by
  simp [needsUpstreamReconfig, filled]

theorem converges_iff_plain {Address : Type} (finds : Str → Nat → Option Address)
    (selfAddr : Str)
    (accepted : (resolveAddr finds selfAddr).isSome) (port : Nat) (superuser : ConnectionParams)
    (existing : Str) (replication : ConnectionParams) (name : Str) :
    Converges selfAddr port superuser existing replication name ↔
      Plain selfAddr superuser existing := by
  obtain ⟨portText, split⟩ := resolved_split accepted
  constructor
  · rintro ⟨derived, upstream, expected, _, settled⟩
    obtain ⟨single, unbracketed⟩ := (reachableHost_iff split).mp derived
    have same : hostPart selfAddr = hostText selfAddr := unbracketed
    rw [same] at derived upstream expected
    have bare : ConnInfo.needsQuotes (hostText selfAddr) = false := by
      rw [← firstWord_iff, ← derived, ← expectedHost_published selfAddr port superuser,
        expected, derived]
    have reached : ConnInfo.needsQuotes (reachableHost selfAddr) = false := by
      rw [derived]
      exact bare
    obtain ⟨⟨host, hostPort⟩, found, first⟩ := Option.map_eq_some_iff.mp upstream
    obtain rfl : host = hostText selfAddr := first
    rw [expected, needsUpstreamReconfig_iff (plain_visible bare).1, read_settled_iff bare found]
      at settled
    have published :=
      (connUrlHost_iff reached port superuser).mp (upstream.trans (congrArg some derived.symm))
    rw [derived] at published
    exact ⟨single, unbracketed, bare, settled.1, published, settled.2⟩
  · rintro ⟨single, unbracketed, bare, unquoted, published, kept⟩
    have derived := (reachableHost_iff split).mpr ⟨single, unbracketed⟩
    have same : hostPart selfAddr = hostText selfAddr := unbracketed
    have reached : reachableHost selfAddr = hostText selfAddr := derived.trans same
    have expected : expectedHost (connUrl selfAddr port superuser) = hostPart selfAddr := by
      rw [expectedHost_published, reached, same]
      exact (firstWord_iff _).mpr bare
    have upstream : (connUrlHostPort (connUrl selfAddr port superuser)).map Prod.fst =
        some (hostPart selfAddr) := by
      rw [← derived]
      refine (connUrlHost_iff (by rw [reached]; exact bare) port superuser).mpr fun other last => ?_
      rw [reached]
      exact published other last
    constructor
    · exact derived
    · exact upstream
    · exact expected
    · rw [parsePgHostPort_published, expected]
    · obtain ⟨⟨host, hostPort⟩, found, first⟩ := Option.map_eq_some_iff.mp upstream
      obtain rfl : host = hostText selfAddr := first.trans same
      rw [expected, same, needsUpstreamReconfig_iff (plain_visible bare).1,
        read_settled_iff bare found]
      exact ⟨unquoted, kept⟩

/-- A lookup that knows one node and one address of IPv6. -/
def sampleFinds (host : Str) (port : Nat) : Option (Str × Nat) :=
  if host = "n1".toList ∨ host = "[::1]".toList then some (host, port) else none

theorem converges_iff_plain_named :
    Converges "n1:2380".toList 5432 ⟨"postgres".toList, none, "postgres".toList⟩
      "port = 5433\nprimary_conninfo = 'host=n3'\n".toList
        ⟨"repl".toList, some "it's".toList, []⟩ "n2".toList := by
  refine (converges_iff_plain sampleFinds _ (by decide) _ _ _ _ _).mpr
    ⟨by decide, by decide, by decide, by decide, ?_, ?_⟩
  · intro other last
    have nothing : (superuserHosts ⟨"postgres".toList, none, "postgres".toList⟩).getLast? =
        none := by
      decide
    rw [nothing] at last
    cases last
  · intro other kept
    have nothing : (keptLines "port = 5433\nprimary_conninfo = 'host=n3'\n".toList).findSome?
        lineHost = none := by
      decide
    rw [nothing] at kept
    cases kept

/-- An address of IPv6 is cut at its first colon, and a user name with a `host=` in it makes a
replica restart in every cycle. -/
theorem readers_disagree :
    (resolveAddr sampleFinds "[::1]:2380".toList).isSome ∧
    ¬ Converges "[::1]:2380".toList 5432 ⟨"postgres".toList, none, "postgres".toList⟩ []
      ⟨"repl".toList, none, []⟩ "n2".toList ∧
    (resolveAddr sampleFinds "n1:2380".toList).isSome ∧
    ¬ Converges "n1:2380".toList 5432 ⟨"u host=x".toList, none, "postgres".toList⟩ []
      ⟨"repl".toList, none, []⟩ "n2".toList := by
  refine ⟨by decide, ?_, by decide, ?_⟩
  · intro converges
    exact absurd converges.derived (by decide)
  · intro converges
    exact absurd converges.settled (by decide +kernel)

end PgHa.Upstream
