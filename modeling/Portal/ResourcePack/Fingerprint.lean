/-
# ResourcePack.Fingerprint — no two directories are written into the hash alike

`resourcePackFingerprint` writes what it finds on its walk into a hash: for a directory its
path and the word `dir`, for a file its path, the word `file`, its size and its time, with
a NUL byte behind each.  Neither a length nor a count is written, and a path may be any of
these words.

A `Listing` is what a walk without errors passes to its callback.  What is written for it
is its `words`, terminated (`written_listing`); none contains a NUL byte, and the second
word of an entry says how many there are, so the words determine the listing
(`words_inj`).  With a hash that has no collisions, `ReloadIfChanged` therefore finds the
fingerprint unchanged exactly if the listing is (`fingerprint_unambiguous`).
-/
import Mathlib
import Portal.ResourcePack.Manager
import Portal.Theory.Separator

namespace Portal.ResourcePack

open Portal.Theory.Separator

set_option autoImplicit false

variable {P : Type}

/-! ## What is written -/

/-- What the walk writes into the hash, or the error it ends with. -/
def written : List Visited → Except String (List UInt8)
  | [] => .ok []
  | v :: rest =>
      match v.record, written rest with
      | .error err, _ => .error err
      | .ok _, .error err => .error err
      | .ok line, .ok more => .ok (line ++ more)

/-- `resourcePackFingerprint` on a walk that visits these entries. -/
def resourcePackFingerprint (env : Env P) (text : List UInt8) :
    List Visited → Option (Progress (List UInt8) String)
  | [] => fingerprintStep env text .go
  | v :: rest =>
      match fingerprintStep env text (.visited v) with
      | some (.goes text) => resourcePackFingerprint env text rest
      | stopped => stopped

/-- The fingerprint is the hash of what is written. -/
theorem fingerprint_of_written (env : Env P) (text : List UInt8) {entries : List Visited}
    {bytes : List UInt8} (wrote : written entries = .ok bytes) :
    resourcePackFingerprint env text entries = some (.yields (env.hash (text ++ bytes))) := by
  induction entries generalizing text bytes with
  | nil =>
      obtain rfl := Except.ok.inj wrote
      rw [List.append_nil]
      rfl
  | cons v rest ih =>
      rw [written] at wrote
      cases line : v.record with
      | error err =>
          rw [line] at wrote
          cases wrote
      | ok line' =>
          cases more : written rest with
          | error err =>
              rw [line, more] at wrote
              cases wrote
          | ok more' =>
              rw [line, more] at wrote
              obtain rfl := Except.ok.inj wrote
              rw [resourcePackFingerprint, fingerprintStep, line]
              simp only
              rw [ih (text ++ line') more, List.append_assoc]

/-! ## Listings -/

/-- A relative path: any bytes without NUL. -/
def RelPath := { rel : List UInt8 // 0 ∉ rel }

instance : DecidableEq RelPath := inferInstanceAs (DecidableEq { rel : List UInt8 // 0 ∉ rel })

/-- An entry of a directory. -/
inductive Entry where
  | dir (rel : RelPath)
  | file (rel : RelPath) (size modTime : Int64)
  deriving DecidableEq

namespace Entry

def visited : Entry → Visited
  | dir rel => .dir rel.val
  | file rel size modTime => .file rel.val size modTime

/-- `%d` of an `int64`. -/
def decimal (n : Int64) : List UInt8 := ascii (toString n.toInt)

/-- What is written for an entry, word by word. -/
def words : Entry → List (List UInt8)
  | dir rel => [rel.val, ascii "dir"]
  | file rel size modTime => [rel.val, ascii "file", decimal size, decimal modTime]

end Entry

/-- Entries in the order of the walk. -/
abbrev Listing := List Entry

def Listing.visited (listing : Listing) : List Visited := listing.map Entry.visited

def Listing.words (listing : Listing) : List (List UInt8) := listing.flatMap Entry.words

/-! ## Decimal numbers -/

/-- The characters of a decimal number. -/
theorem mem_toString {n : Int} {c : Char} (in_ : c ∈ (toString n).toList) :
    c = '-' ∨ c.isDigit = true := by
  have digit : ∀ (m : Nat), c ∈ m.repr.toList → c.isDigit = true := by
    intro m in_
    rw [Nat.toList_repr] at in_
    exact Nat.isDigit_of_mem_toDigits (by decide) (by decide) in_
  rw [Int.toString_eq_repr] at in_
  cases n with
  | ofNat m => exact .inr (digit m in_)
  | negSucc m =>
      have in_ : c ∈ ("-" ++ m.succ.repr).toList := in_
      rw [String.toList_append] at in_
      rcases List.mem_append.mp in_ with minus | digits
      · exact .inl (List.mem_singleton.mp minus)
      · exact .inr (digit m.succ digits)

theorem toNat_of_mem_toString {n : Int} {c : Char} (in_ : c ∈ (toString n).toList) :
    0 < c.toNat ∧ c.toNat < 256 := by
  rcases mem_toString in_ with rfl | digit
  · decide
  · simp only [Char.isDigit, Bool.and_eq_true, decide_eq_true_eq, UInt32.le_iff_toNat_le,
      ge_iff_le] at digit
    have low : '0'.val.toNat = 48 := rfl
    have high : '9'.val.toNat = 57 := rfl
    have value : c.toNat = c.val.toNat := rfl
    omega

/-- The characters of one byte each, from their bytes. -/
theorem chars_ascii {s : String} (narrow : ∀ c ∈ s.toList, c.toNat < 256) :
    (ascii s).map (fun b => Char.ofNat b.toNat) = s.toList := by
  have back : ∀ c ∈ s.toList, Char.ofNat (UInt8.ofNat c.toNat).toNat = c := by
    intro c in_
    rw [UInt8.toNat_ofNat_of_lt' (narrow c in_), Char.ofNat_toNat]
  rw [ascii, List.map_map]
  exact (List.map_congr_left back).trans (List.map_id' _)

namespace Entry

theorem decimal_inj {n m : Int64} (same : decimal n = decimal m) : n = m := by
  have texts : toString n.toInt = toString m.toInt := by
    apply String.toList_inj.mp
    rw [← chars_ascii fun c in_ => (toNat_of_mem_toString in_).2,
      ← chars_ascii fun c in_ => (toNat_of_mem_toString in_).2]
    exact congrArg _ same
  rw [Int.toString_eq_repr, Int.toString_eq_repr] at texts
  exact Int64.toInt_inj.mp (Int.repr_inj.mp texts)

theorem decimal_free (n : Int64) : 0 ∉ decimal n := by
  intro in_
  obtain ⟨c, digit, zero⟩ := List.mem_map.mp in_
  obtain ⟨positive, narrow⟩ := toNat_of_mem_toString digit
  have value := congrArg UInt8.toNat zero
  rw [UInt8.toNat_ofNat_of_lt' narrow] at value
  exact absurd value (Nat.ne_of_gt positive)

theorem words_free (e : Entry) : ∀ word ∈ e.words, 0 ∉ word := by
  cases e with
  | dir rel =>
      intro word in_
      simp only [words, List.mem_cons, List.not_mem_nil, or_false] at in_
      rcases in_ with rfl | rfl
      · exact rel.property
      · decide
  | file rel size modTime =>
      intro word in_
      simp only [words, List.mem_cons, List.not_mem_nil, or_false] at in_
      rcases in_ with rfl | rfl | rfl | rfl
      · exact rel.property
      · decide
      · exact decimal_free size
      · exact decimal_free modTime

theorem record_visited (e : Entry) : e.visited.record = .ok (terminated 0 e.words) := by
  have dir : ascii "\x00dir\x00" = 0 :: (ascii "dir" ++ [0]) := rfl
  have file : ascii "\x00file\x00" = 0 :: (ascii "file" ++ [0]) := rfl
  have nul : ascii "\x00" = [0] := rfl
  cases e with
  | dir rel => simp [visited, Visited.record, words, terminated, dir]
  | file rel size modTime => simp [visited, Visited.record, words, terminated, decimal, file, nul]

end Entry

namespace Listing

theorem words_cons (e : Entry) (listing : Listing) :
    words (e :: listing) = e.words ++ listing.words := List.flatMap_cons

theorem words_free (listing : Listing) : ∀ word ∈ listing.words, 0 ∉ word := by
  intro word in_
  obtain ⟨e, -, own⟩ := List.mem_flatMap.mp in_
  exact e.words_free word own

/-- **The words determine the listing.**  By induction on both: the word after the path
tells a directory from a file. -/
theorem words_inj {listing listing' : Listing} (same : listing.words = listing'.words) :
    listing = listing' := by
  have dirFile : ascii "dir" ≠ ascii "file" := by decide
  induction listing generalizing listing' with
  | nil =>
      cases listing' with
      | nil => rfl
      | cons e' listing' => cases e' <;> cases same
  | cons e listing ih =>
      cases listing' with
      | nil => cases e <;> cases same
      | cons e' listing' =>
          rw [words_cons, words_cons] at same
          cases e with
          | dir rel =>
              cases e' with
              | dir rel' =>
                  obtain ⟨path, rest⟩ := List.cons.inj same
                  obtain rfl : rel = rel' := Subtype.ext path
                  rw [ih (List.cons.inj rest).2]
              | file rel' size' modTime' =>
                  obtain ⟨-, rest⟩ := List.cons.inj same
                  exact absurd (List.cons.inj rest).1 dirFile
          | file rel size modTime =>
              cases e' with
              | dir rel' =>
                  obtain ⟨-, rest⟩ := List.cons.inj same
                  exact absurd (List.cons.inj rest).1 dirFile.symm
              | file rel' size' modTime' =>
                  obtain ⟨path, rest⟩ := List.cons.inj same
                  obtain ⟨-, rest⟩ := List.cons.inj rest
                  obtain ⟨sizes, rest⟩ := List.cons.inj rest
                  obtain ⟨times, rest⟩ := List.cons.inj rest
                  obtain rfl : rel = rel' := Subtype.ext path
                  rw [Entry.decimal_inj sizes, Entry.decimal_inj times, ih rest]

/-- The bytes that are written for a listing. -/
theorem written_listing (listing : Listing) :
    written listing.visited = .ok (terminated 0 listing.words) := by
  induction listing with
  | nil => rfl
  | cons e listing ih =>
      have first := e.record_visited
      show written (e.visited :: visited listing) = _
      rw [written, first, ih]
      simp only [words_cons, terminated, List.flatMap_append]

end Listing

/-- **The fingerprint is unambiguous.**  For all listings: the same bytes are written for
them only if they are the same.  So with a hash without collisions two walks end with the
same fingerprint exactly if they have seen the same listing, and `ReloadIfChanged` takes
the packs for unchanged exactly if it has seen what the active ones were loaded from. -/
theorem fingerprint_unambiguous (listing listing' : Listing) :
    (written listing.visited = written listing'.visited → listing = listing') ∧
    ∀ {P : Type} (env : Env P), Function.Injective env.hash →
      ∃ fingerprint fingerprint',
        resourcePackFingerprint env [] listing.visited = some (.yields fingerprint) ∧
        resourcePackFingerprint env [] listing'.visited = some (.yields fingerprint') ∧
        (fingerprint = fingerprint' ↔ listing = listing') ∧
        ∀ (m : Manager P) (c : CallID) (answer : Answer P), m.fingerprint = fingerprint →
          m.step env c answer (.comparing fingerprint') =
            some (m.goto c (.runlocking (decide (listing' = listing)))) := by
  have only : written listing.visited = written listing'.visited → listing = listing' := by
    intro same
    rw [listing.written_listing, listing'.written_listing] at same
    exact Listing.words_inj (terminated_inj listing.words_free listing'.words_free (Except.ok.inj same))
  refine ⟨only, ?_⟩
  intro P env collisionFree
  have same : env.hash ([] ++ terminated 0 listing.words) = env.hash ([] ++ terminated 0 listing'.words) ↔
      listing = listing' := by
    constructor
    · intro equal
      apply only
      rw [listing.written_listing, listing'.written_listing]
      exact congrArg Except.ok (collisionFree equal)
    · rintro rfl
      rfl
  refine ⟨_, _, fingerprint_of_written env [] listing.written_listing,
    fingerprint_of_written env [] listing'.written_listing, same, ?_⟩
  intro m c answer active
  rw [Manager.step, active]
  congr 3
  exact decide_eq_decide.mpr (eq_comm.trans (same.trans eq_comm))

theorem plain_hash_injective : Function.Injective Manager.plain.hash := by
  have back : ∀ b : UInt8, UInt8.ofNat (Char.ofNat b.toNat).toNat = b := by
    intro b
    have valid : b.toNat.isValidChar := .inl (Nat.lt_trans b.toNat_lt (by decide))
    rw [Char.toNat_ofNat, if_pos valid, UInt8.ofNat_toNat]
  intro text text' same
  have chars := congrArg (fun s => ascii s) same
  simpa [Manager.plain, ascii, Function.comp_def, back] using chars

/-- A file named like the words of a directory. -/
theorem fingerprint_unambiguous_renamed :
    let path : RelPath := ⟨ascii "dir", by decide⟩
    let listing : Listing := [.dir path, .file path 3 (-1)]
    let listing' : Listing := [.dir path, .file path 31 1]
    written listing.visited = .ok (ascii "dir\x00dir\x00dir\x00file\x003\x00-1\x00") ∧
      ∃ fingerprint fingerprint',
        resourcePackFingerprint Manager.plain [] listing.visited = some (.yields fingerprint) ∧
        resourcePackFingerprint Manager.plain [] listing'.visited = some (.yields fingerprint') ∧
        fingerprint ≠ fingerprint' := by
  intro path listing listing'
  refine ⟨by decide, ?_⟩
  obtain ⟨fingerprint, fingerprint', first, second, same, -⟩ :=
    (fingerprint_unambiguous listing listing').2 Manager.plain plain_hash_injective
  exact ⟨fingerprint, fingerprint', first, second, fun equal => absurd (same.mp equal) (by decide)⟩

end Portal.ResourcePack
