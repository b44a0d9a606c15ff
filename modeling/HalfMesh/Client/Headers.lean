import HalfMesh.Foundations.GoMap
import HalfMesh.Foundations.Outcome
import Mathlib

/-! The headers of the HTTP client (`cmd/client/main.go`): its arguments are pairs `name: value`, which
go into an `http.Header` before the first request and from there into `req.Header` of every request.
What `net/http` then makes of `req.Header` is left out: it drops some names, adds headers of its own and
refuses a request with a name or a value that is not valid. -/
namespace HalfMesh.Client
open HalfMesh.Foundations
set_option autoImplicit false
set_option maxHeartbeats 250000
set_option maxRecDepth 120000

abbrev Text := List Char

/-! ## `net/http` and `strings` -/

/-- `unicode.IsSpace`. -/
def isSpace (c : Char) : Bool :=
  (9 ≤ c.toNat && c.toNat ≤ 13) || c.toNat = 0x20 || c.toNat = 0x85 || c.toNat = 0xA0 || c.toNat = 0x1680 ||
    (0x2000 ≤ c.toNat && c.toNat ≤ 0x200A) || c.toNat = 0x2028 || c.toNat = 0x2029 || c.toNat = 0x202F ||
    c.toNat = 0x205F || c.toNat = 0x3000

def trimSpace (s : Text) : Text := ((s.dropWhile isSpace).reverse.dropWhile isSpace).reverse

def validHeaderFieldByte (c : Char) : Bool := c.isAlphanum || "!#$%&'*+-.^_`|~".toList.contains c

/-- Upper case at the start and after each dash, lower case elsewhere. -/
def capitalize : Bool → Text → Text
  | _, [] => []
  | upper, c :: s => (if upper then c.toUpper else c.toLower) :: capitalize (c = '-') s

/-- A name that is no token stays as it is. -/
def canonicalHeaderKey (s : Text) : Text := if s.all validHeaderFieldByte then capitalize true s else s

abbrev Header := GoMap Text (List Text)

def Header.add (h : Header) (key value : Text) : Header :=
  h.insert (canonicalHeaderKey key) ((h.lookup (canonicalHeaderKey key)).getD [] ++ [value])

/-! ## `httpClient` -/

def addPair (headers : Header) (pair : Text) : Outcome Header :=
  match pair.splitOn ':' with
  | [name, value] => .ok (headers.add (trimSpace name) (trimSpace value))
  | _ => .err ("invalid header pair: " ++ String.ofList pair)

def readHeaders (args : List Text) : Outcome Header := Outcome.foldlM addPair ∅ args

/-- `req.Header` of one request as it is handed to `client.Do`, copied in some order of the map. -/
def requestHeader (ord : RangeOrder Text (List Text)) (headers : Header) : Header :=
  (ord.range headers).foldl (fun header e => header.insert e.1 e.2) ∅

/-! ## Names in upper and lower case -/

/-- Only characters of ASCII have another case. -/
theorem char_forall {P : Char → Prop} (hascii : ∀ n < 128, P (Char.ofNat n))
    (hrest : ∀ c : Char, c.toLower = c → c.toUpper = c → P c) (c : Char) : P c := by
  by_cases h : c.toNat < 128
  · have hc := hascii c.toNat h
    rwa [Char.ofNat_toNat] at hc
  · refine hrest c (dif_neg fun hc => h ?_) (dif_neg fun hc => h ?_)
    · have hle : c.toNat ≤ 90 := UInt32.le_iff_toNat_le.mp hc.2
      omega
    · have hle : c.toNat ≤ 122 := UInt32.le_iff_toNat_le.mp hc.2
      omega

theorem toLower_eq_dash (c : Char) : c.toLower = '-' ↔ c = '-' :=
  char_forall (P := fun c => c.toLower = '-' ↔ c = '-') (by decide) (fun c hlower _ => by rw [hlower]) c

theorem valid_toLower (c : Char) : validHeaderFieldByte c.toLower = validHeaderFieldByte c :=
  char_forall (P := fun c => validHeaderFieldByte c.toLower = validHeaderFieldByte c) (by decide)
    (fun c hlower _ => by rw [hlower]) c

theorem valid_toUpper (c : Char) : validHeaderFieldByte c.toUpper = validHeaderFieldByte c :=
  char_forall (P := fun c => validHeaderFieldByte c.toUpper = validHeaderFieldByte c) (by decide)
    (fun c _ hupper => by rw [hupper]) c

theorem map_toLower_capitalize (upper : Bool) (s : Text) : (capitalize upper s).map Char.toLower = s.map Char.toLower := by
  induction s generalizing upper with
  | nil => rfl
  | cons c s ih =>
    rw [capitalize, List.map_cons, List.map_cons, ih]
    cases upper <;> simp

theorem capitalize_map_toLower (upper : Bool) (s : Text) : capitalize upper (s.map Char.toLower) = capitalize upper s := by
  induction s generalizing upper with
  | nil => rfl
  | cons c s ih =>
    rw [List.map_cons, capitalize, capitalize, ih]
    cases upper <;> simp [toLower_eq_dash]

theorem all_capitalize (upper : Bool) (s : Text) :
    (capitalize upper s).all validHeaderFieldByte = s.all validHeaderFieldByte := by
  induction s generalizing upper with
  | nil => rfl
  | cons c s ih =>
    rw [capitalize, List.all_cons, List.all_cons, ih]
    cases upper <;> simp [valid_toLower, valid_toUpper]

theorem all_map_toLower (s : Text) : (s.map Char.toLower).all validHeaderFieldByte = s.all validHeaderFieldByte := by
  rw [List.all_map]
  congr 1
  funext c
  exact valid_toLower c

/-- Two spellings of one name; what is no token has one spelling. -/
def SameName (s s' : Text) : Prop :=
  if s.all validHeaderFieldByte then s.map Char.toLower = s'.map Char.toLower else s = s'

theorem canonicalHeaderKey_eq_iff (s s' : Text) : canonicalHeaderKey s = canonicalHeaderKey s' ↔ SameName s s' := by
  unfold canonicalHeaderKey SameName
  by_cases hs : s.all validHeaderFieldByte = true
  · rw [if_pos hs, if_pos hs]
    constructor
    · intro h
      split_ifs at h
      · rw [← map_toLower_capitalize true s, h, map_toLower_capitalize]
      · rw [← map_toLower_capitalize true s, h]
    · intro h
      have hs' : s'.all validHeaderFieldByte = true := by
        rw [← all_map_toLower, ← h, all_map_toLower, hs]
      rw [if_pos hs', ← capitalize_map_toLower, h, capitalize_map_toLower]
  · rw [if_neg hs, if_neg hs]
    constructor
    · intro h
      split_ifs at h with hs'
      · rw [h, all_capitalize] at hs
        exact absurd hs' hs
      · exact h
    · intro h
      rw [if_neg (h ▸ hs)]
      exact h

instance (s s' : Text) : Decidable (SameName s s') := decidable_of_iff _ (canonicalHeaderKey_eq_iff s s')

/-! ## One pair -/

/-- What comes before the first colon. -/
def nameOf (pair : Text) : Text := trimSpace (pair.takeWhile (· ≠ ':'))

def valueOf (pair : Text) : Text := trimSpace (pair.dropWhile (· ≠ ':')).tail

theorem length_splitOn (c : Char) (l : Text) : (l.splitOn c).length = l.count c + 1 := by
  induction l with
  | nil => simp
  | cons a l ih =>
    rw [List.splitOn_cons_eq_if_modifyHead, List.count_cons]
    split_ifs <;> simp [ih]

theorem addPair_eq (headers : Header) (pair : Text) : addPair headers pair =
    if pair.count ':' = 1 then .ok (headers.add (nameOf pair) (valueOf pair))
    else .err ("invalid header pair: " ++ String.ofList pair) := by
  unfold addPair
  have hlen := length_splitOn ':' pair
  split
  · next name value hsplit =>
    rw [hsplit] at hlen
    have hcount : pair.count ':' = 1 := by simpa using hlen.symm
    obtain ⟨name', value', hpair, hname⟩ := List.eq_append_cons_of_mem (List.count_pos_iff.mp (by omega : 0 < pair.count ':'))
    have hvalue : ':' ∉ value' := by
      rw [hpair, List.count_append, List.count_cons_self, List.count_eq_zero_of_not_mem hname] at hcount
      exact List.count_eq_zero.mp (by omega)
    rw [hpair, List.splitOn_append_cons_self_of_not_mem hname, List.splitOn_eq_singleton hvalue] at hsplit
    obtain ⟨rfl, hrest⟩ := List.cons.inj hsplit
    obtain rfl := List.singleton_inj.mp hrest
    have hwhile : ∀ c ∈ name', decide (c ≠ ':') = true := fun c hc => by
      simp only [ne_eq, decide_eq_true_eq]
      rintro rfl
      exact hname hc
    rw [if_pos hcount, nameOf, valueOf, hpair, List.takeWhile_append_of_pos hwhile, List.dropWhile_append_of_pos hwhile]
    simp
  · next hno =>
    rw [if_neg]
    intro hcount
    rw [hcount] at hlen
    obtain ⟨name, value, hsplit⟩ := List.length_eq_two.mp hlen
    exact hno name value hsplit

/-! ## All pairs -/

/-- The values of the pairs whose name has a key. -/
def valuesAt (k : Text) (args : List Text) : List Text :=
  (args.filter fun pair => canonicalHeaderKey (nameOf pair) = k).map valueOf

/-- Some values more than there were; there is no key without a value. -/
def more (values : List Text) (o : Option (List Text)) : Option (List Text) :=
  if values = [] then o else some (o.getD [] ++ values)

theorem more_append (values values' : List Text) (o : Option (List Text)) :
    more values' (more values o) = more (values ++ values') o := by
  unfold more
  by_cases h : values = []
  · simp [h]
  · by_cases h' : values' = [] <;> simp [h, h']

theorem lookup_add (headers : Header) (pair k : Text) :
    (headers.add (nameOf pair) (valueOf pair)).lookup k = more (valuesAt k [pair]) (headers.lookup k) := by
  rw [Header.add, lookup_insert_if]
  by_cases hk : k = canonicalHeaderKey (nameOf pair)
  · subst hk
    simp [valuesAt, more]
  · simp [valuesAt, more, hk, Ne.symm hk]

theorem valuesAt_cons (k pair : Text) (args : List Text) :
    valuesAt k (pair :: args) = valuesAt k [pair] ++ valuesAt k args := by
  rw [valuesAt, valuesAt, valuesAt, ← List.map_append, ← List.filter_append]
  rfl

theorem exists_of_more {k : Text} {args : List Text} (h : (more (valuesAt k args) none).isSome) :
    ∃ pair ∈ args, canonicalHeaderKey (nameOf pair) = k := by
  have hvalues : valuesAt k args ≠ [] := by
    intro hnone
    rw [hnone] at h
    cases h
  obtain ⟨value, hvalue⟩ := List.exists_mem_of_ne_nil _ hvalues
  obtain ⟨pair, hpair, _⟩ := List.mem_map.mp hvalue
  obtain ⟨hmem, hkey⟩ := List.mem_filter.mp hpair
  exact ⟨pair, hmem, of_decide_eq_true hkey⟩

/-- Pairs that are well formed are all added. -/
theorem foldlM_addPair_ok {args : List Text} {headers headers' : Header}
    (h : Outcome.foldlM addPair headers args = .ok headers') :
    (∀ pair ∈ args, pair.count ':' = 1) ∧ ∀ k, headers'.lookup k = more (valuesAt k args) (headers.lookup k) := by
  induction args generalizing headers with
  | nil =>
    obtain rfl : headers = headers' := Outcome.ok.inj h
    simp [valuesAt, more]
  | cons pair args ih =>
    rw [Outcome.foldlM, addPair_eq] at h
    split_ifs at h with hcount
    · obtain ⟨hall, hlookup⟩ := ih h
      refine ⟨fun p hp => ?_, fun k => ?_⟩
      · rcases List.mem_cons.mp hp with rfl | hp
        · exact hcount
        · exact hall p hp
      · rw [hlookup, lookup_add, more_append, ← valuesAt_cons]
    · cases h

/-- The first pair that is not ends it. -/
theorem foldlM_addPair_err {args : List Text} {headers : Header} {text : String}
    (h : Outcome.foldlM addPair headers args = .err text) :
    ∃ before pair after, args = before ++ pair :: after ∧ (∀ p ∈ before, p.count ':' = 1) ∧ pair.count ':' ≠ 1 ∧
      text = "invalid header pair: " ++ String.ofList pair := by
  induction args generalizing headers with
  | nil => cases h
  | cons pair args ih =>
    rw [Outcome.foldlM, addPair_eq] at h
    split_ifs at h with hcount
    · obtain ⟨before, bad, after, rfl, hbefore, hbad, htext⟩ := ih h
      refine ⟨pair :: before, bad, after, rfl, fun p hp => ?_, hbad, htext⟩
      rcases List.mem_cons.mp hp with rfl | hp
      · exact hcount
      · exact hbefore p hp
    · exact ⟨[], pair, args, rfl, fun p hp => absurd hp List.not_mem_nil, hcount, (Outcome.err.inj h).symm⟩

theorem foldlM_addPair_no_panic {args : List Text} {headers : Header} {why : Panic} :
    Outcome.foldlM addPair headers args ≠ .panic why := by
  induction args generalizing headers with
  | nil => exact fun h => by cases h
  | cons pair args ih =>
    rw [Outcome.foldlM, addPair_eq]
    split_ifs
    · exact ih
    · exact fun h => by cases h

/-- Copying into an empty header copies everything, in whatever order. -/
theorem lookup_requestHeader (ord : RangeOrder Text (List Text)) (headers : Header) (k : Text) :
    (requestHeader ord headers).lookup k = headers.lookup k := by
  rw [requestHeader, foldl_last_write (fun header => AList.lookup k header) _ (fun e => decide (k = e.1))
    (fun e => some e.2) (fun header e => by rw [lookup_insert_if]; simp)]
  cases hlast : ((ord.range headers).filter fun e => decide (k = e.1)).getLast? with
  | some e =>
    have he := List.mem_filter.mp (List.mem_of_getLast? hlast)
    obtain rfl : k = e.1 := by simpa using he.2
    exact ((ord.mem_range headers e).mp he.1).symm
  | none =>
    rw [List.getLast?_eq_none_iff, List.filter_eq_nil_iff] at hlast
    cases hk : headers.lookup k with
    | none => rfl
    | some v =>
      have hne := hlast ⟨k, v⟩ ((ord.mem_range headers ⟨k, v⟩).mpr hk)
      simp at hne

/-- `req.Header` of every request that the HTTP client makes holds the arguments as they were given: if
each has one colon, then under every spelling of a name the values given for it, trimmed, in their
order, and no key that is not a name given; and otherwise no request is made, but there is an error with
the first argument that has not one colon. -/
theorem headers_of_args (args : List Text) :
    (∃ headers, readHeaders args = .ok headers ∧ (∀ pair ∈ args, pair.count ':' = 1) ∧ ∀ ord,
      (∀ name, (requestHeader ord headers).lookup (canonicalHeaderKey name) =
        let values := (args.filter fun pair => SameName name (nameOf pair)).map valueOf
        if values = [] then none else some values) ∧
      ∀ k, ((requestHeader ord headers).lookup k).isSome → ∃ pair ∈ args, canonicalHeaderKey (nameOf pair) = k) ∨
    ∃ before pair after, args = before ++ pair :: after ∧ (∀ p ∈ before, p.count ':' = 1) ∧ pair.count ':' ≠ 1 ∧
      readHeaders args = .err ("invalid header pair: " ++ String.ofList pair) := by
  cases hread : readHeaders args with
  | ok headers =>
    obtain ⟨hall, hlookup⟩ := foldlM_addPair_ok hread
    refine .inl ⟨headers, rfl, hall, fun ord => ⟨fun name => ?_, fun k hk => ?_⟩⟩
    · have hvalues : valuesAt (canonicalHeaderKey name) args =
          (args.filter fun pair => SameName name (nameOf pair)).map valueOf := by
        unfold valuesAt
        congr 1
        refine List.filter_congr fun pair _ => ?_
        exact decide_eq_decide.mpr (eq_comm.trans (canonicalHeaderKey_eq_iff name (nameOf pair)))
      rw [lookup_requestHeader, hlookup, hvalues]
      rfl
    · rw [lookup_requestHeader, hlookup] at hk
      exact exists_of_more hk
  | err text =>
    obtain ⟨before, pair, after, hargs, hbefore, hpair, rfl⟩ := foldlM_addPair_err hread
    exact .inr ⟨before, pair, after, hargs, hbefore, hpair, rfl⟩
  | panic why => exact absurd hread foldlM_addPair_no_panic

end HalfMesh.Client
