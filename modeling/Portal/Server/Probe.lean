/-
# Server.Probe — the URL a health check requests

A NetherNet server is addressed by a URL without a path, and `ParseNetherNetAddress` checks
the parts of it that `url.Parse` returns.  `pingNetherNet` appends the path of its request
to the text of the address.  The check leaves the query and the fragment out, and what is
appended behind one of these is part of it.

`NetURL.parse` splits a text as `url.Parse` does; how an authority, a path and a fragment
are decoded is a parameter.  An accepted address is a scheme, an authority and possibly
a query or a fragment (`parse_address`).  The request goes where the address points
exactly if there is neither (`probe_reaches`).
-/
import Mathlib.Data.List.DropRight
import Portal.Server.Registry
import Portal.Theory.Separator

namespace Portal

open Portal.Theory.Separator

set_option autoImplicit false

/-! ## `url.Parse` -/

/-- How `url.Parse` decodes the parts it has split. -/
structure NetURL where
  /-- the host and the port of an authority; `none` is an error -/
  authority : List Char → Option (String × String)
  /-- a path unescaped -/
  path : List Char → Option String
  /-- whether a fragment can be unescaped -/
  fragment : List Char → Bool
  authority_nil : ∀ host port, authority [] = some (host, port) → host = ""
  path_empty : ∀ raw, path raw = some "" ↔ raw = []
  path_join : path "/v1/join".toList = some "/v1/join"

/-- `strings.Cut`: without a separator everything is before it. -/
def cutOr (sep : Char) (s : List Char) : List Char × List Char := (cut sep s).getD (s, [])

/-- The characters of a scheme after its first, which is a letter. -/
def schemeChar (c : Char) : Bool := c.isAlphanum || c = '+' || c = '-' || c = '.'

/-- `getScheme`: the scheme, which is empty if there is none, and the rest. -/
def getScheme (raw : List Char) : Option (List Char × List Char) :=
  match cut ':' raw with
  | none => some ([], raw)
  | some ([], _) => none
  | some (first :: more, rest) =>
      if first.isAlpha && more.all schemeChar then some (first :: more, rest) else some ([], raw)

/-- A control character, which no URL may contain. -/
def isCTL (c : Char) : Bool := c.toNat < 32 || c.toNat = 127

namespace NetURL

variable (net : NetURL)

/-- What follows the scheme, without the query: an opaque part, an authority with a path, or
a path. -/
def parseRest (scheme rest : List Char) : Option URL :=
  let scheme' := String.ofList (scheme.map Char.toLower)
  if rest.head? ≠ some '/' ∧ scheme ≠ [] then some ⟨scheme', "", "", ""⟩
  else if rest.head? ≠ some '/' ∧ ':' ∈ rest.takeWhile (· ≠ '/') then none
  else if rest.take 2 = ['/', '/'] ∧ (scheme ≠ [] ∨ rest.take 3 ≠ ['/', '/', '/']) then do
    let (host, port) ← net.authority ((rest.drop 2).takeWhile (· ≠ '/'))
    let path ← net.path ((rest.drop 2).dropWhile (· ≠ '/'))
    return ⟨scheme', host, port, path⟩
  else do
    let path ← net.path rest
    return ⟨scheme', "", "", path⟩

/-- `url.Parse`. -/
def parse (raw : String) : Option URL :=
  let (u, fragment) := cutOr '#' raw.toList
  if u.any isCTL then none
  else do
    let (scheme, rest) ← getScheme u
    let url ← net.parseRest scheme (cutOr '?' rest).1
    if fragment ≠ [] ∧ !net.fragment fragment then none else return url

end NetURL

/-- The URL that `pingNetherNet` requests. -/
def pingNetherNetURL (address : String) : String :=
  String.ofList (address.toList.rdropWhile (· = '/') ++ "/v1/join".toList)

/-! ## The parts of a text -/

section Parts

variable {sep : Char} {s a b : List Char}

/-- The text is cut at the first separator, or has none. -/
theorem cutOr_spec (sep : Char) (s : List Char) :
    sep ∉ (cutOr sep s).1 ∧ ∃ tail, s = (cutOr sep s).1 ++ tail ∧
      (tail = [] ∨ tail.head? = some sep) := by
  unfold cutOr
  cases split : cut sep s with
  | none => exact ⟨cut_eq_none_iff.mp split, [], by simp, .inl rfl⟩
  | some parts => exact ⟨cut_free split, sep :: parts.2, join_of_cut split, .inr rfl⟩

theorem cutOr_of_free (free : sep ∉ s) : cutOr sep s = (s, []) := by
  rw [cutOr, cut_eq_none_iff.mpr free]
  rfl

/-- What is free of separators stays before the first one. -/
theorem cutOr_append (free : sep ∉ a) : (cutOr sep (a ++ b)).1 = a ++ (cutOr sep b).1 := by
  obtain ⟨noSep, tail, text, head⟩ := cutOr_spec sep b
  rcases head with rfl | mark
  · rw [List.append_nil] at text
    rw [← text] at noSep ⊢
    rw [cutOr_of_free]
    exact fun in_ => (List.mem_append.mp in_).elim free noSep
  · cases tail with
    | nil => cases mark
    | cons c tail =>
        obtain rfl := Option.some.inj mark
        have both : c ∉ a ++ (cutOr c b).1 := fun in_ => (List.mem_append.mp in_).elim free noSep
        have split : a ++ b = (a ++ (cutOr c b).1) ++ c :: tail := by
          rw [List.append_assoc, ← text]
        rw [split, cutOr, cut_join both]
        rfl

theorem cutOr_marked (mark : s.head? = some sep) : (cutOr sep s).1 = [] := by
  cases s with
  | nil => cases mark
  | cons c s =>
      obtain rfl := Option.some.inj mark
      simp [cutOr, cut]

/-- Trimming stops at the last other character. -/
theorem rdropWhile_append {p : Char → Bool} (stops : ∀ last, a.getLast? = some last → p last = false)
    (b : List Char) : (a ++ b).rdropWhile p = a ++ b.rdropWhile p := by
  induction b using List.reverseRecOn with
  | nil =>
      rw [List.append_nil, List.rdropWhile_nil, List.append_nil, List.rdropWhile_eq_self_iff]
      intro some_
      exact Bool.eq_false_iff.mp (stops _ (List.getLast?_eq_some_getLast some_))
  | append_singleton b c ih =>
      rw [← List.append_assoc, List.rdropWhile_concat, List.rdropWhile_concat, ih]
      split
      · rfl
      · rw [List.append_assoc]

/-- A scheme, which is found as such before a colon. -/
structure Scheme (scheme : List Char) : Prop where
  nonempty : scheme ≠ []
  chars : ∀ c ∈ scheme, schemeChar c = true
  found : ∀ rest, getScheme (scheme ++ ':' :: rest) = some (scheme, rest)

theorem Scheme.free (legal : Scheme s) {c : Char} (illegal : schemeChar c = false) : c ∉ s := by
  intro in_
  rw [legal.chars c in_] at illegal
  cases illegal

theorem getScheme_some {scheme rest : List Char} (found : getScheme s = some (scheme, rest))
    (nonempty : scheme ≠ []) : Scheme scheme ∧ s = scheme ++ ':' :: rest := by
  unfold getScheme at found
  split at found
  · cases found
    exact absurd rfl nonempty
  · cases found
  · rename_i first more rest' split
    split at found
    · rename_i legal
      cases found
      obtain ⟨letter, chars⟩ := Bool.and_eq_true_iff.mp legal
      refine ⟨⟨nonempty, ?_, ?_⟩, join_of_cut split⟩
      · rintro c (_ | ⟨_, in_⟩)
        · simp [schemeChar, Char.isAlphanum, letter]
        · exact List.all_eq_true.mp chars c in_
      · intro rest
        unfold getScheme
        rw [cut_join (cut_free split)]
        exact if_pos legal
    · cases found
      exact absurd rfl nonempty

end Parts

/-! ## Accepted addresses -/

/-- A text that is a scheme, an authority, and then nothing, a query or a fragment. -/
structure Address (raw scheme authority tail : List Char) : Prop where
  text : raw = scheme ++ ':' :: '/' :: '/' :: (authority ++ tail)
  legal : Scheme scheme
  nonempty : authority ≠ []
  delimiters : ∀ c ∈ authority, c ≠ '/' ∧ c ≠ '?' ∧ c ≠ '#'
  tail : tail = [] ∨ tail.head? = some '?' ∨ tail.head? = some '#'
  printable : ∀ c ∈ scheme ++ ':' :: '/' :: '/' :: authority, isCTL c = false

namespace NetURL

variable (net : NetURL) {scheme authority rest : List Char} {url : URL}

/-- An authority reaches as far as the first slash. -/
theorem parseRest_authority (nonempty : scheme ≠ []) (free : ∀ c ∈ authority, c ≠ '/')
    (tail : List Char) (path : tail = [] ∨ tail.head? = some '/') :
    net.parseRest scheme ('/' :: '/' :: (authority ++ tail)) = do
      let (host, port) ← net.authority authority
      let path ← net.path tail
      return ⟨String.ofList (scheme.map Char.toLower), host, port, path⟩ := by
  have front : (authority ++ tail).takeWhile (· ≠ '/') = authority ∧
      (authority ++ tail).dropWhile (· ≠ '/') = tail := by
    induction authority with
    | nil =>
        rcases path with rfl | slash
        · exact ⟨rfl, rfl⟩
        · cases tail with
          | nil => cases slash
          | cons c tail =>
              obtain rfl := Option.some.inj slash
              exact ⟨rfl, rfl⟩
    | cons c authority ih =>
        obtain ⟨ne, free⟩ := List.forall_mem_cons.mp free
        obtain ⟨taken, dropped⟩ := ih free
        simp only [List.cons_append]
        rw [List.takeWhile_cons_of_pos (by simpa using ne), List.dropWhile_cons_of_pos (by simpa using ne),
          taken, dropped]
        exact ⟨rfl, rfl⟩
  unfold parseRest
  simp only [List.head?_cons, ne_eq, not_true_eq_false, false_and, if_false, List.take_succ_cons,
    List.take_zero, nonempty, not_false_eq_true, true_or, and_self, if_true, List.drop_succ_cons,
    List.drop_zero]
  rw [front.1, front.2]

/-- A host comes from an authority; without a path there is nothing behind it. -/
theorem parseRest_host (ok : net.parseRest scheme rest = some url) (host : url.host ≠ "")
    (path : url.path = "") :
    ∃ authority port, rest = '/' :: '/' :: authority ∧ authority ≠ [] ∧ (∀ c ∈ authority, c ≠ '/') ∧
      net.authority authority = some (url.host, port) ∧
      url = ⟨String.ofList (scheme.map Char.toLower), url.host, port, ""⟩ := by
  unfold parseRest at ok
  simp only at ok
  split at ok
  · cases ok
    exact absurd rfl host
  · split at ok
    · cases ok
    · split at ok
      · rename_i slashes
        have text : rest = '/' :: '/' :: rest.drop 2 := by
          have whole := List.take_append_drop 2 rest
          rw [slashes.1] at whole
          exact whole.symm
        obtain ⟨⟨host', port⟩, decoded, ok⟩ := Option.bind_eq_some_iff.mp ok
        obtain ⟨path', unescaped, ok⟩ := Option.bind_eq_some_iff.mp ok
        obtain rfl := Option.some.inj ok
        obtain rfl : path' = "" := path
        have all : (rest.drop 2).takeWhile (· ≠ '/') = rest.drop 2 := by
          have whole := @List.takeWhile_append_dropWhile _ (fun c => decide (c ≠ '/')) (rest.drop 2)
          rwa [(net.path_empty _).mp unescaped, List.append_nil] at whole
        rw [all] at decoded
        refine ⟨rest.drop 2, port, text, ?_, ?_, decoded, rfl⟩
        · intro empty
          rw [empty] at decoded
          exact host (net.authority_nil _ _ decoded)
        · intro c in_
          rw [← all] at in_
          have apart := List.mem_takeWhile_imp in_
          simpa using apart
      · obtain ⟨path', -, ok⟩ := Option.bind_eq_some_iff.mp ok
        obtain rfl := Option.some.inj ok
        exact absurd rfl host

/-- **The shape of an address.**  What parses to a host and no path. -/
theorem parse_address {raw : String} (ok : net.parse raw = some url) (hasScheme : url.scheme ≠ "")
    (host : url.host ≠ "") (path : url.path = "") :
    ∃ scheme authority tail port, Address raw.toList scheme authority tail ∧
      net.authority authority = some (url.host, port) ∧
      url = ⟨String.ofList (scheme.map Char.toLower), url.host, port, ""⟩ := by
  unfold parse at ok
  simp only at ok
  split at ok
  · cases ok
  · rename_i clean
    obtain ⟨⟨scheme, rest⟩, found, ok⟩ := Option.bind_eq_some_iff.mp ok
    obtain ⟨url', parsed, ok⟩ := Option.bind_eq_some_iff.mp ok
    simp only at parsed ok
    split at ok
    · cases ok
    · obtain rfl := Option.some.inj ok
      obtain ⟨authority, port, split, nonempty, slash, decoded, made⟩ :=
        net.parseRest_host parsed host path
      have named : scheme ≠ [] := by
        rintro rfl
        rw [made] at hasScheme
        exact hasScheme rfl
      obtain ⟨legal, before⟩ := getScheme_some found named
      obtain ⟨noFragment, fragment, whole, fragmentHead⟩ := cutOr_spec '#' raw.toList
      obtain ⟨noQuery, query, afterScheme, queryHead⟩ := cutOr_spec '?' rest
      rw [split] at noQuery afterScheme
      rw [afterScheme] at before
      rw [before] at noFragment whole clean
      refine ⟨scheme, authority, query ++ fragment, port, ⟨?_, legal, nonempty, ?_, ?_, ?_⟩, decoded, made⟩
      · rw [whole]
        simp
      · intro c in_
        refine ⟨slash c in_, ?_, ?_⟩
        · rintro rfl
          exact noQuery (by simp [in_])
        · rintro rfl
          exact noFragment (by simp [in_])
      · rcases queryHead with rfl | mark
        · rcases fragmentHead with rfl | mark
          · exact .inl rfl
          · exact .inr (.inr mark)
        · refine .inr (.inl ?_)
          cases query with
          | nil => cases mark
          | cons c query => exact mark
      · intro c in_
        have all := List.any_eq_false.mp (Bool.eq_false_iff.mpr clean) c
        refine Bool.eq_false_iff.mpr (all ?_)
        rw [← List.cons_append, ← List.append_assoc]
        exact List.mem_append_left _ in_

end NetURL

namespace Address

variable {raw scheme authority tail : List Char}

theorem free (address : Address raw scheme authority tail) {c : Char} (illegal : schemeChar c = false)
    (others : c ≠ ':' ∧ c ≠ '/') (apart : c ∉ authority) :
    c ∉ scheme ++ ':' :: '/' :: '/' :: authority := by
  simp only [List.mem_append, List.mem_cons, not_or]
  exact ⟨address.legal.free illegal, others.1, others.2, others.2, apart⟩

/-- What `url.Parse` takes for the scheme and for what follows it. -/
theorem head (address : Address raw scheme authority tail) :
    ∃ query, (cutOr '#' raw).1 = scheme ++ ':' :: ('/' :: '/' :: (authority ++ query)) ∧
      (cutOr '?' ('/' :: '/' :: (authority ++ query))).1 = '/' :: '/' :: authority := by
  have noFragment : '#' ∉ scheme ++ ':' :: '/' :: '/' :: authority :=
    address.free (by decide) (by decide) fun in_ => (address.delimiters _ in_).2.2 rfl
  have noQuery : '?' ∉ '/' :: '/' :: authority := by
    simp only [List.mem_cons, not_or]
    exact ⟨by decide, by decide, fun in_ => (address.delimiters _ in_).2.1 rfl⟩
  have before : (cutOr '#' raw).1 =
      scheme ++ ':' :: ('/' :: '/' :: (authority ++ (cutOr '#' tail).1)) := by
    have split := cutOr_append (b := tail) noFragment
    simpa [address.text] using split
  refine ⟨(cutOr '#' tail).1, before, ?_⟩
  have query : (cutOr '?' (cutOr '#' tail).1).1 = [] := by
    rcases address.tail with rfl | mark | mark
    · rfl
    · cases tail with
      | nil => cases mark
      | cons c tail =>
          obtain rfl := Option.some.inj mark
          have kept := cutOr_append (b := tail) (show '#' ∉ ['?'] by decide)
          rw [List.singleton_append] at kept
          rw [kept]
          exact cutOr_marked rfl
    · rw [cutOr_marked mark]
      rfl
  have split := cutOr_append (b := (cutOr '#' tail).1) noQuery
  rw [query, List.append_nil] at split
  exact split

/-- Whatever stands behind the mark of a query or of a fragment, there is no path. -/
theorem parse_path (address : Address raw scheme authority tail) (net : NetURL) {url : URL}
    (ok : net.parse (String.ofList raw) = some url) : url.path = "" := by
  obtain ⟨query, before, after⟩ := address.head
  have delimiters : ∀ c ∈ authority, c ≠ '/' := fun c in_ => (address.delimiters c in_).1
  have rest := net.parseRest_authority address.legal.nonempty delimiters [] (.inl rfl)
  rw [List.append_nil] at rest
  unfold NetURL.parse at ok
  simp only [String.toList_ofList, before, address.legal.found] at ok
  split at ok
  · cases ok
  · obtain ⟨_, ⟨⟩, ok⟩ := Option.bind_eq_some_iff.mp ok
    obtain ⟨url', parsed, ok⟩ := Option.bind_eq_some_iff.mp ok
    simp only [after, rest] at parsed
    obtain ⟨_, -, parsed⟩ := Option.bind_eq_some_iff.mp parsed
    obtain ⟨path, unescaped, made⟩ := Option.bind_eq_some_iff.mp parsed
    rw [(net.path_empty []).mpr rfl] at unescaped
    obtain rfl := Option.some.inj unescaped
    obtain rfl := Option.some.inj made
    split at ok
    · cases ok
    · obtain rfl := Option.some.inj ok
      rfl

/-- With the path of the request behind the authority. -/
theorem parse_join (address : Address raw scheme authority tail) (net : NetURL) {host port : String}
    (decoded : net.authority authority = some (host, port)) :
    net.parse (String.ofList (scheme ++ ':' :: '/' :: '/' :: (authority ++ "/v1/join".toList))) =
      some ⟨String.ofList (scheme.map Char.toLower), host, port, "/v1/join"⟩ := by
  have whole : scheme ++ ':' :: '/' :: '/' :: (authority ++ "/v1/join".toList) =
      (scheme ++ ':' :: '/' :: '/' :: authority) ++ "/v1/join".toList := by
    simp
  have noFragment : '#' ∉ (scheme ++ ':' :: '/' :: '/' :: authority) ++ "/v1/join".toList := by
    rw [List.mem_append, not_or]
    exact ⟨address.free (by decide) (by decide) fun in_ => (address.delimiters _ in_).2.2 rfl,
      by decide⟩
  have noQuery : '?' ∉ '/' :: '/' :: (authority ++ "/v1/join".toList) := by
    simp only [List.mem_cons, List.mem_append, not_or]
    exact ⟨by decide, by decide, fun in_ => (address.delimiters _ in_).2.1 rfl, by decide⟩
  have clean : ((scheme ++ ':' :: '/' :: '/' :: authority) ++ "/v1/join".toList).any isCTL = false := by
    rw [List.any_append, Bool.or_eq_false_iff]
    refine ⟨List.any_eq_false.mpr ?_, by decide⟩
    intro c in_
    exact Bool.eq_false_iff.mp (address.printable c in_)
  have delimiters : ∀ c ∈ authority, c ≠ '/' := fun c in_ => (address.delimiters c in_).1
  have rest := net.parseRest_authority address.legal.nonempty delimiters "/v1/join".toList (.inr rfl)
  unfold NetURL.parse
  simp only [String.toList_ofList]
  rw [whole, cutOr_of_free noFragment]
  simp only [clean, Bool.false_eq_true, if_false]
  rw [← whole, address.legal.found]
  simp only [Option.bind_eq_bind, Option.bind_some, cutOr_of_free noQuery, rest, decoded,
    net.path_join]
  rfl

/-- Trimming the slashes of an address leaves its authority alone. -/
theorem trimmed (address : Address raw scheme authority tail) :
    raw.rdropWhile (· = '/') =
      scheme ++ ':' :: '/' :: '/' :: (authority ++ tail.rdropWhile (· = '/')) := by
  have stops : ∀ last, (scheme ++ ':' :: '/' :: '/' :: authority).getLast? = some last →
      decide (last = '/') = false := by
    intro last found
    rw [show scheme ++ ':' :: '/' :: '/' :: authority = (scheme ++ [':', '/', '/']) ++ authority by simp,
      List.getLast?_append_of_ne_nil _ address.nonempty] at found
    exact decide_eq_false (address.delimiters last (List.mem_of_getLast? found)).1
  have kept := rdropWhile_append stops tail
  simpa [address.text] using kept

/-- Nothing stands behind the authority if the text has no mark. -/
theorem tail_eq_nil_iff (address : Address raw scheme authority tail) :
    tail = [] ↔ '?' ∉ raw ∧ '#' ∉ raw := by
  constructor
  · rintro rfl
    rw [address.text, List.append_nil]
    exact ⟨address.free (by decide) (by decide) fun in_ => (address.delimiters _ in_).2.1 rfl,
      address.free (by decide) (by decide) fun in_ => (address.delimiters _ in_).2.2 rfl⟩
  · rintro ⟨noQuery, noFragment⟩
    have inside : ∀ c, tail.head? = some c → c ∈ raw := by
      intro c mark
      rw [address.text]
      simp [List.mem_of_head? mark]
    rcases address.tail with empty | mark | mark
    · exact empty
    · exact absurd (inside _ mark) noQuery
    · exact absurd (inside _ mark) noFragment

/-- What is appended behind a query or a fragment is part of it. -/
theorem appended (address : Address raw scheme authority tail) (marked : tail ≠ [])
    (more : List Char) :
    Address (raw.rdropWhile (· = '/') ++ more) scheme authority (tail.rdropWhile (· = '/') ++ more) := by
  have head : ∀ c, c ≠ '/' → tail.head? = some c →
      (tail.rdropWhile (· = '/') ++ more).head? = some c := by
    intro c apart mark
    obtain ⟨rest, whole⟩ := List.rdropWhile_prefix (· = '/') tail
    cases kept : tail.rdropWhile (· = '/') with
    | nil =>
        have slash := List.rdropWhile_eq_nil_iff.mp kept c (List.mem_of_head? mark)
        exact absurd (of_decide_eq_true slash) apart
    | cons d kept' =>
        rw [kept] at whole
        rw [← whole] at mark
        exact mark
  refine ⟨?_, address.legal, address.nonempty, address.delimiters, ?_, address.printable⟩
  · rw [address.trimmed]
    simp
  · rcases address.tail with empty | mark | mark
    · exact absurd empty marked
    · exact .inr (.inl (head _ (by decide) mark))
    · exact .inr (.inr (head _ (by decide) mark))

end Address

theorem parseNetherNetAddress_ok {lib : Library} {address : String} {u : URL}
    (accepted : parseNetherNetAddress lib address = .ok u) :
    lib.parseURL address = some u ∧ u.scheme ≠ "" ∧ u.host ≠ "" ∧ u.path = "" := by
  unfold parseNetherNetAddress at accepted
  split at accepted
  · cases accepted
  · rename_i parsed
    split at accepted
    · cases accepted
    · rename_i whole
      split at accepted
      · cases accepted
      · split at accepted
        · cases accepted
        · split at accepted
          · cases accepted
          · rename_i noPath
            obtain rfl := Except.ok.inj accepted
            obtain ⟨scheme, host⟩ := not_or.mp whole
            exact ⟨parsed, scheme, host, not_not.mp noPath⟩

/-- **What a health check requests.**  For every address that is accepted: the URL requested
has the scheme, the host and the port of the address and the path of the request, exactly
if the address has neither a query nor a fragment. -/
theorem probe_reaches (net : NetURL) (lib : Library) (parses : lib.parseURL = net.parse)
    {address : String} {u : URL} (accepted : parseNetherNetAddress lib address = .ok u) :
    (∃ v, lib.parseURL (pingNetherNetURL address) = some v ∧ v.scheme = u.scheme ∧
      v.host = u.host ∧ v.port = u.port ∧ v.path = "/v1/join") ↔
      '?' ∉ address.toList ∧ '#' ∉ address.toList := by
  obtain ⟨parsed, scheme', host, path⟩ := parseNetherNetAddress_ok accepted
  rw [parses] at parsed ⊢
  obtain ⟨scheme, authority, tail, port, shape, decoded, made⟩ :=
    net.parse_address parsed scheme' host path
  rw [← shape.tail_eq_nil_iff, pingNetherNetURL]
  constructor
  · rintro ⟨v, requested, -, -, -, join⟩
    by_contra marked
    rw [(shape.appended marked _).parse_path net requested] at join
    exact absurd join (by decide)
  · rintro rfl
    rw [shape.trimmed, List.rdropWhile_nil, List.append_nil, List.append_assoc]
    refine ⟨_, shape.parse_join net decoded, ?_, rfl, ?_, rfl⟩
    · rw [made]
    · rw [made]

/-- Authorities that are a host and a port, and nothing escaped. -/
def plainURL : NetURL where
  authority := fun raw => some (String.ofList raw, String.ofList (cutOr ':' raw).2)
  path := fun raw => some (String.ofList raw)
  fragment := fun _ => true
  authority_nil := by
    rintro host port ⟨⟩
    rfl
  path_empty := by
    intro raw
    rw [Option.some.injEq, String.ofList_eq_empty_iff]
  path_join := rfl

/-- A library with these URLs. -/
def Library.plainURLs : Library := { Library.ascii with parseURL := plainURL.parse }

/-- An address as the documentation shows it. -/
theorem probe_reaches_plain :
    parseNetherNetAddress .plainURLs "http://127.0.0.1:19135" =
      .ok ⟨"http", "127.0.0.1:19135", "19135", ""⟩ ∧
    ∃ v, Library.plainURLs.parseURL (pingNetherNetURL "http://127.0.0.1:19135") = some v ∧
      v.scheme = "http" ∧ v.host = "127.0.0.1:19135" ∧ v.port = "19135" ∧ v.path = "/v1/join" := by
  have accepted : parseNetherNetAddress .plainURLs "http://127.0.0.1:19135" =
      .ok ⟨"http", "127.0.0.1:19135", "19135", ""⟩ := by
    decide
  exact ⟨accepted, (probe_reaches plainURL .plainURLs rfl accepted).mpr (by decide)⟩

/-- **Behind a query.**  The address is accepted, and the request goes to the root of the
server: the path has become a part of the query. -/
theorem probe_query :
    parseNetherNetAddress .plainURLs "http://127.0.0.1:19135?a=b" =
      .ok ⟨"http", "127.0.0.1:19135", "19135", ""⟩ ∧
    pingNetherNetURL "http://127.0.0.1:19135?a=b" = "http://127.0.0.1:19135?a=b/v1/join" ∧
    Library.plainURLs.parseURL (pingNetherNetURL "http://127.0.0.1:19135?a=b") =
      some ⟨"http", "127.0.0.1:19135", "19135", ""⟩ := by
  decide

end Portal
