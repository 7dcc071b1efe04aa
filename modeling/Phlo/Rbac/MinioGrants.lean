import Phlo.Library.Glob
import Phlo.Rbac.MinioCompiler

/-!
# What a MinIO document grants

The objects of a dataset lie in the bucket under its name, with slashes for the dots.  A policy names datasets by a
pattern, its document a prefix of keys.

* `documentAllows` — what the server makes of a document;
* `reaches_iff_matches_iff` — the patterns that match what their prefixes reach;
* `dataset_document_exact_iff` — the policies whose documents grant exactly what they match.
-/

namespace Phlo.Rbac

open Phlo.Library
open Phlo.RunEvidence (isWordChar)

/-! ### Documents -/

def listsText (value : Option JsonValue) (s : String) : Bool :=
  match value with
  | some (.arr items) => items.any fun item =>
    match item with
    | .str text => text = s
    | _ => false
  | _ => false

def coversResource (value : Option JsonValue) (arn : List Char) : Bool :=
  match value with
  | some (.arr items) => items.any fun item =>
    match item with
    | .str resource => globMatches (resourceItems resource.toList) arn
    | _ => false
  | _ => false

def statementAllows (action : String) (arn : List Char) : JsonValue → Bool
  | .obj fields =>
    (match fields.lookup "Effect" with
      | some (.str effect) => effect = "Allow"
      | _ => false) &&
      listsText (fields.lookup "Action") action && coversResource (fields.lookup "Resource") arn
  | _ => false

def documentAllows (action : String) (arn : List Char) : JsonValue → Bool
  | .obj fields =>
    match fields.lookup "Statement" with
    | some (.arr statements) => statements.any (statementAllows action arn)
    | _ => false
  | _ => false

def objectArn (bucket : String) (key : List Char) : List Char := ("arn:aws:s3:::" ++ bucket ++ "/").toList ++ key

/-! ### Datasets -/

def isIdentifier : List Char → Bool
  | [] => false
  | c :: cs => isLetter c && cs.all isWordChar

/-- The segments of a dataset's name. -/
structure Dataset where
  first : List Char
  more : List (List Char) := []
  identifiers : ∀ segment ∈ first :: more, isIdentifier segment = true

/-- The segments with a character before each of them but the first. -/
def Dataset.joined (d : Dataset) (separator : Char) : List Char :=
  d.first ++ d.more.flatMap fun segment => separator :: segment

def Dataset.name (d : Dataset) : List Char := d.joined '.'

def Dataset.path (d : Dataset) : List Char := d.joined '/'

def Dataset.ofIdentifier (segment : List Char) (h : isIdentifier segment = true) : Dataset where
  first := segment
  identifiers s hs := by
    rw [List.mem_singleton.1 hs]
    exact h

def slashed (cs : List Char) : List Char := cs.map fun c => if c = '.' then '/' else c

variable {c : Char} {word : List Char}

theorem isWordChar_of_mem {segment : List Char} (h : isIdentifier segment = true) (hc : c ∈ segment) :
    isWordChar c = true := by
  cases segment with
  | nil => cases hc
  | cons first rest =>
    rw [isIdentifier, Bool.and_eq_true] at h
    rcases List.mem_cons.1 hc with hc | hc
    · rw [hc]
      exact isWordChar_of_isLetter h.1
    · exact List.all_eq_true.1 h.2 c hc

theorem ne_of_isWordChar {d : Char} (h : isWordChar c = true) (hd : isWordChar d = false) : c ≠ d := by
  rintro rfl
  rw [h] at hd
  cases hd

variable {cs : List Char}

theorem slashed_of_isWordChar (h : ∀ c ∈ cs, isWordChar c = true) : slashed cs = cs := by
  induction cs with
  | nil => rfl
  | cons c cs ih =>
    have hc : c ≠ '.' := ne_of_isWordChar (h c List.mem_cons_self) (by decide)
    rw [slashed, List.map_cons, if_neg hc]
    exact congrArg (c :: ·) (ih fun x hx => h x (List.mem_cons_of_mem c hx))

theorem Dataset.path_eq (d : Dataset) : d.path = slashed d.name := by
  obtain ⟨first, more, hids⟩ := d
  have hsegments : ∀ l : List (List Char), (∀ s ∈ l, isIdentifier s = true) →
      (l.flatMap fun segment => '/' :: segment) = slashed (l.flatMap fun segment => '.' :: segment) := by
    intro l hl
    induction l with
    | nil => rfl
    | cons s l ih =>
      have hs := slashed_of_isWordChar fun c hc => isWordChar_of_mem (hl s List.mem_cons_self) hc
      rw [List.flatMap_cons, List.flatMap_cons, slashed, List.map_append, List.map_cons, if_pos rfl]
      exact congrArg₂ (· ++ ·) (congrArg ('/' :: ·) hs.symm) (ih fun s hs => hl s (List.mem_cons_of_mem _ hs))
  show first ++ _ = slashed (first ++ _)
  rw [slashed, List.map_append]
  refine congrArg₂ (· ++ ·) ?_ (hsegments more fun s hs => hids s (List.mem_cons_of_mem first hs))
  exact (slashed_of_isWordChar fun c hc => isWordChar_of_mem (hids first List.mem_cons_self) hc).symm

/-- A name starts with a letter, and has only characters of identifiers and dots. -/
theorem Dataset.name_chars (d : Dataset) :
    (∃ c cs, d.name = c :: cs ∧ isLetter c = true) ∧ ∀ c ∈ d.name, isWordChar c = true ∨ c = '.' := by
  obtain ⟨first, more, hids⟩ := d
  have hfirst := hids first List.mem_cons_self
  constructor
  · cases first with
    | nil => cases hfirst
    | cons c cs =>
      rw [isIdentifier, Bool.and_eq_true] at hfirst
      exact ⟨c, _, rfl, hfirst.1⟩
  · intro c hc
    rcases List.mem_append.1 hc with hc | hc
    · exact .inl (isWordChar_of_mem hfirst hc)
    · obtain ⟨segment, hsegment, hin⟩ := List.mem_flatMap.1 hc
      rcases List.mem_cons.1 hin with hdot | hin
      · exact .inr hdot
      · exact .inl (isWordChar_of_mem (hids segment (List.mem_cons_of_mem first hsegment)) hin)

theorem Dataset.path_chars (d : Dataset) :
    (∃ c cs, d.path = c :: cs ∧ isLetter c = true) ∧ ∀ c ∈ d.path, isWordChar c = true ∨ c = '/' := by
  have ⟨⟨c, cs, hname, hletter⟩, hchars⟩ := d.name_chars
  have hdot : c ≠ '.' := ne_of_isWordChar (isWordChar_of_isLetter hletter) (by decide)
  rw [d.path_eq]
  refine ⟨⟨c, slashed cs, by rw [hname, slashed, List.map_cons, if_neg hdot, slashed], hletter⟩, fun x hx => ?_⟩
  have ⟨y, hy, hxy⟩ := List.mem_map.1 hx
  split at hxy
  · exact .inr hxy.symm
  next hne =>
    rw [← hxy]
    exact .inl ((hchars y hy).resolve_right hne)

/-! ### Patterns -/

def withoutStars (pattern : List Char) : List Char := pattern.filter (· ≠ '*')

def matchesDataset (pattern : List Char) (d : Dataset) : Bool :=
  globMatches (fnmatchItemsFrom pattern.length pattern) d.name

/-- The prefix agrees with the path of a dataset. -/
def reachesDataset (pattern : List Char) (d : Dataset) : Bool :=
  agrees (slashed (withoutStars pattern)) (d.path ++ ['/'])

def mayStart (c : Char) : Bool := isLetter c || c = '?'

/-- A character that may end a segment of a name for a prefix of keys. -/
def mayStop (c : Char) : Bool := c = '.' || c = '/' || c = '?'

/-- The prefix may be that of a key of a dataset: it is empty, or starts like a name, and the first character that
is not of the first segment ends it. -/
def LeadsSomewhere (plain : List Char) : Prop :=
  plain = [] ∨ ∃ c word rest, plain = c :: (word ++ rest) ∧ mayStart c = true ∧ (∀ x ∈ word, isWordChar x = true) ∧
    ∀ x ∈ rest.head?, mayStop x = true

/-- A pattern with stars that names all, or all names that start with a text of one segment. -/
def OpenEnded (pattern : List Char) : Prop :=
  '*' ∈ pattern ∧ (withoutStars pattern = [] ∨ withoutStars pattern = ['?'] ∨
    withoutStars pattern <+: pattern ∧ ∃ c word, withoutStars pattern = c :: word ∧ mayStart c = true ∧
      ∀ x ∈ word, isWordChar x = true)

variable {pattern : List Char}

/-- A character of a segment stands only for itself. -/
theorem eq_of_standsFor {p : Char} (hp : isWordChar p = true) (h : standsFor p c = true) : c = p := by
  simp only [standsFor, Bool.or_eq_true, decide_eq_true_eq] at h
  exact h.resolve_left (ne_of_isWordChar hp (by decide))

/-- A prefix that agrees with a path and goes on after some characters of a segment goes on with a character of a
segment, a slash or a question mark. -/
theorem mayGoOn_of_agrees {rest path : List Char} {x : Char} (hword : ∀ y ∈ word, isWordChar y = true)
    (hpath : ∀ y ∈ path, isWordChar y = true ∨ y = '/') (h : agrees (word ++ x :: rest) (path ++ ['/']) = true) :
    isWordChar x = true ∨ x = '/' ∨ x = '?' := by
  induction word generalizing path with
  | nil =>
    have hhead : ∃ y ys, path ++ ['/'] = y :: ys ∧ (isWordChar y = true ∨ y = '/') := by
      cases path with
      | nil => exact ⟨'/', [], rfl, .inr rfl⟩
      | cons y path => exact ⟨y, path ++ ['/'], rfl, hpath y List.mem_cons_self⟩
    have ⟨y, ys, hys, hy⟩ := hhead
    rw [hys, List.nil_append, agrees_cons, Bool.and_eq_true] at h
    have hstands := h.1
    simp only [standsFor, Bool.or_eq_true, decide_eq_true_eq] at hstands
    rcases hstands with hone | heq
    · exact .inr (.inr hone)
    · rw [← heq]
      exact hy.imp_right .inl
  | cons w word ih =>
    have hw := hword w List.mem_cons_self
    cases path with
    | nil =>
      rw [List.nil_append, List.cons_append, agrees_cons, Bool.and_eq_true] at h
      exact absurd (eq_of_standsFor hw h.1).symm (ne_of_isWordChar hw (by decide))
    | cons y path =>
      rw [List.cons_append, List.cons_append, agrees_cons, Bool.and_eq_true] at h
      exact ih (fun z hz => hword z (List.mem_cons_of_mem w hz)) (fun z hz => hpath z (List.mem_cons_of_mem y hz)) h.2

theorem word_and_rest (cs : List Char) : ∃ word rest, cs = word ++ rest ∧ (∀ x ∈ word, isWordChar x = true) ∧
    ∀ x ∈ rest.head?, isWordChar x = false := by
  refine ⟨cs.takeWhile isWordChar, cs.dropWhile isWordChar, (List.takeWhile_append_dropWhile).symm,
    fun x hx => List.all_eq_true.1 List.all_takeWhile x hx, fun x hx => ?_⟩
  have hnot := List.head?_dropWhile_not isWordChar cs
  rw [Option.mem_def.1 hx] at hnot
  simpa using hnot

theorem mayStop_slash
    (h : isWordChar (if c = '.' then '/' else c) = true ∨ (if c = '.' then '/' else c) = '/' ∨ (if c = '.' then '/' else c) = '?')
    (hc : isWordChar c = false) : mayStop c = true := by
  unfold mayStop
  split at h
  next hdot => simp [hdot]
  · rcases h with hword | hslash | hone
    · rw [hword] at hc
      cases hc
    · simp [hslash]
    · simp [hone]

theorem leadsSomewhere_of_reaches {d : Dataset} (h : reachesDataset pattern d = true) :
    LeadsSomewhere (withoutStars pattern) := by
  rw [reachesDataset] at h
  generalize withoutStars pattern = plain at h ⊢
  cases plain with
  | nil => exact .inl rfl
  | cons c cs =>
    obtain ⟨⟨first, more, hpath, hletter⟩, hchars⟩ := d.path_chars
    have hfirst := isWordChar_of_isLetter hletter
    rw [hpath] at hchars
    rw [slashed, List.map_cons, hpath, List.cons_append, agrees_cons, Bool.and_eq_true] at h
    have hstart : mayStart c = true := by
      have hstands := h.1
      simp only [standsFor, Bool.or_eq_true, decide_eq_true_eq] at hstands
      unfold mayStart
      split at hstands
      · rcases hstands with hone | heq
        · cases hone
        · exact absurd heq (ne_of_isWordChar hfirst (by decide))
      · rcases hstands with hone | heq
        · simp [hone]
        · rw [← heq, hletter, Bool.true_or]
    obtain ⟨word, rest, hcs, hword, hrest⟩ := word_and_rest cs
    refine .inr ⟨c, word, rest, by rw [hcs], hstart, hword, fun x hx => ?_⟩
    cases rest with
    | nil => cases hx
    | cons y rest =>
      cases hx
      have hagrees := h.2
      rw [hcs, List.map_append, List.map_cons] at hagrees
      have hslashed := slashed_of_isWordChar hword
      rw [slashed] at hslashed
      rw [hslashed] at hagrees
      exact mayStop_slash (mayGoOn_of_agrees hword (fun z hz => hchars z (List.mem_cons_of_mem first hz)) hagrees)
        (hrest x rfl)

/-! ### Patterns that name a beginning -/

theorem not_special_of_mayStart (h : mayStart c = true) : c ≠ '[' ∧ c ≠ '.' ∧ c ≠ '*' := by
  unfold mayStart at h
  rw [Bool.or_eq_true, decide_eq_true_eq] at h
  rcases h with hletter | hone
  · have hword := isWordChar_of_isLetter hletter
    exact ⟨ne_of_isWordChar hword (by decide), ne_of_isWordChar hword (by decide),
      ne_of_isWordChar hword (by decide)⟩
  · rw [hone]
    decide

/-- A text of one segment agrees with a path exactly if it agrees with the name, which is long enough. -/
theorem agrees_path_iff {name : List Char} (hword : ∀ x ∈ word, isWordChar x = true) :
    agrees word (slashed name ++ ['/']) = true ↔ word.length ≤ name.length ∧ agrees word name = true := by
  induction word generalizing name with
  | nil => simp
  | cons w word ih =>
    have hw := hword w List.mem_cons_self
    cases name with
    | nil =>
      have hnot : standsFor w '/' = false := by
        rw [← Bool.not_eq_true]
        exact fun h => ne_of_isWordChar hw (by decide) (eq_of_standsFor hw h).symm
      simp [slashed, hnot]
    | cons y name =>
      have hsame : standsFor w (if y = '.' then '/' else y) = standsFor w y := by
        split
        next hdot =>
          have hslash : standsFor w '/' = false := by
            rw [← Bool.not_eq_true]
            exact fun h => ne_of_isWordChar hw (by decide) (eq_of_standsFor hw h).symm
          have hdot' : standsFor w y = false := by
            rw [hdot, ← Bool.not_eq_true]
            exact fun h => ne_of_isWordChar hw (by decide) (eq_of_standsFor hw h).symm
          rw [hslash, hdot']
        · rfl
      have hrest := @ih name fun x hx => hword x (List.mem_cons_of_mem w hx)
      rw [slashed] at hrest
      rw [slashed, List.map_cons, List.cons_append, agrees_cons, agrees_cons, hsame, Bool.and_eq_true,
        Bool.and_eq_true, hrest, List.length_cons, List.length_cons, Nat.add_le_add_iff_right]
      tauto

theorem reaches_iff_of_beginning (hplain : withoutStars pattern = c :: word) (hc : mayStart c = true)
    (hword : ∀ x ∈ word, isWordChar x = true) (d : Dataset) :
    reachesDataset pattern d = true ↔ (c :: word).length ≤ d.name.length ∧ agrees (c :: word) d.name = true := by
  have ⟨⟨first, rest, hname, hletter⟩, _⟩ := d.name_chars
  have hfirst : first ≠ '.' := ne_of_isWordChar (isWordChar_of_isLetter hletter) (by decide)
  have hslashed : slashed (c :: word) = c :: word := by
    have hrest := slashed_of_isWordChar hword
    rw [slashed] at hrest
    rw [slashed, List.map_cons, if_neg (not_special_of_mayStart hc).2.1, hrest]
  have htail := @agrees_path_iff word rest hword
  rw [slashed] at htail
  rw [reachesDataset, hplain, hslashed, d.path_eq, hname, slashed, List.map_cons, if_neg hfirst, List.cons_append,
    agrees_cons, agrees_cons, Bool.and_eq_true, Bool.and_eq_true, htail, List.length_cons, List.length_cons,
    Nat.add_le_add_iff_right]
  tauto

theorem bracket_not_mem (hplain : withoutStars pattern = c :: word) (hc : mayStart c = true)
    (hword : ∀ x ∈ word, isWordChar x = true) : '[' ∉ pattern := by
  intro h
  have hmem : '[' ∈ withoutStars pattern := List.mem_filter.2 ⟨h, by decide⟩
  rw [hplain] at hmem
  rcases List.mem_cons.1 hmem with heq | hmem
  · exact (not_special_of_mayStart hc).1 heq.symm
  · exact ne_of_isWordChar (hword _ hmem) (by decide) rfl

theorem matches_iff_of_beginning (hplain : withoutStars pattern = c :: word) (hc : mayStart c = true)
    (hword : ∀ x ∈ word, isWordChar x = true) (hbegins : withoutStars pattern <+: pattern) (hstar : '*' ∈ pattern)
    (d : Dataset) :
    matchesDataset pattern d = true ↔ (c :: word).length ≤ d.name.length ∧ agrees (c :: word) d.name = true := by
  have ⟨stars, hpattern⟩ := hbegins
  have hnone : '*' ∉ withoutStars pattern := fun h => by simpa using (List.mem_filter.1 h).2
  have hstars : stars.filter (· ≠ '*') = [] := by
    have hfilter := congrArg withoutStars hpattern
    rw [withoutStars, List.filter_append] at hfilter
    have hself : (withoutStars pattern).filter (· ≠ '*') = withoutStars pattern :=
      List.filter_eq_self.2 fun x hx => (List.mem_filter.1 hx).2
    rw [hself] at hfilter
    exact List.append_right_eq_self.1 hfilter
  have hne : stars ≠ [] := by
    rintro rfl
    rw [List.append_nil] at hpattern
    rw [← hpattern] at hstar
    exact hnone hstar
  rw [matchesDataset, fnmatchItemsFrom_eq (bracket_not_mem hplain hc hword), ← hplain, ← globMatches_open hnone]
  have hitems : resourceItems pattern = resourceItems (withoutStars pattern) ++ resourceItems stars := by
    show _ = (withoutStars pattern).map resourceItem ++ stars.map resourceItem
    rw [← List.map_append, hpattern]
    rfl
  rw [hitems, globMatches_append, globMatches_append]
  constructor
  · rintro ⟨x, y, hname, hx, _⟩
    exact ⟨x, y, hname, hx, globMatches_star.2 ⟨y, [], (List.append_nil y).symm, rfl⟩⟩
  · rintro ⟨x, y, hname, hx, _⟩
    exact ⟨x, y, hname, hx, globMatches_stars hne hstars y⟩

theorem reaches_iff_matches_of_openEnded (h : OpenEnded pattern) (d : Dataset) :
    reachesDataset pattern d = true ↔ matchesDataset pattern d = true := by
  obtain ⟨⟨first, rest, hname, _⟩, _⟩ := d.name_chars
  obtain ⟨hstar, hcases⟩ := h
  have hne : pattern ≠ [] := fun heq => by rw [heq] at hstar; cases hstar
  rcases hcases with hplain | hplain | ⟨hbegins, c, word, hplain, hc, hword⟩
  · have hreaches : reachesDataset pattern d = true := by
      rw [reachesDataset, hplain]
      exact agrees_nil_left _
    have hbracket : '[' ∉ pattern := fun hmem => by
      have hin : '[' ∈ withoutStars pattern := List.mem_filter.2 ⟨hmem, by decide⟩
      rw [hplain] at hin
      cases hin
    rw [matchesDataset, fnmatchItemsFrom_eq hbracket]
    exact ⟨fun _ => globMatches_stars hne hplain _, fun _ => hreaches⟩
  · have hreaches : reachesDataset pattern d = true :=
      (reaches_iff_of_beginning hplain (by decide) (fun x hx => absurd hx List.not_mem_nil) d).2
        ⟨by rw [hname]; exact Nat.succ_le_succ (Nat.zero_le _), by rw [hname]; simp [standsFor]⟩
    refine ⟨fun _ => ?_, fun _ => hreaches⟩
    rw [matchesDataset, fnmatchItemsFrom_eq (bracket_not_mem hplain (by decide) fun x hx => absurd hx List.not_mem_nil)]
    -- a star before or after the question mark takes the other characters
    obtain ⟨left, right, hsplit, hleft, _, hright⟩ := List.filter_eq_cons_iff.1 hplain
    have hleft : left.filter (· ≠ '*') = [] := List.filter_eq_nil_iff.2 hleft
    have hitems : resourceItems pattern = resourceItems left ++ (.one :: resourceItems right) := by
      rw [hsplit, resourceItems, List.map_append]
      rfl
    rw [hitems, globMatches_append]
    by_cases hempty : right = []
    · have hne : left ≠ [] := fun heq => by
        rw [hsplit, heq, hempty] at hstar
        simp at hstar
      have hlast : d.name ≠ [] := by
        rw [hname]
        exact List.cons_ne_nil _ _
      refine ⟨d.name.dropLast, [d.name.getLast hlast], (List.dropLast_append_getLast hlast).symm,
        globMatches_stars hne hleft _, ?_⟩
      rw [hempty]
      rfl
    · refine ⟨[], d.name, rfl, globMatches_of_agrees (by rw [hleft]) (by rw [hleft]; rfl), ?_⟩
      rw [hname]
      show (true && globMatches (resourceItems right) rest) = true
      rw [globMatches_stars hempty hright, Bool.and_self]
  · rw [reaches_iff_of_beginning hplain hc hword, matches_iff_of_beginning hplain hc hword hbegins hstar]

/-! ### Datasets that tell a pattern from its prefix -/

def fill (c : Char) : Char := if c = '?' then 'A' else c

/-- A letter that is not the one at hand. -/
def other (c : Char) : Char := if c = 'A' then 'B' else 'A'

theorem isLetter_fill (h : mayStart c = true) : isLetter (fill c) = true := by
  unfold mayStart at h
  unfold fill
  split
  · rfl
  next hne => simpa [hne] using h

theorem standsFor_fill (c : Char) : standsFor c (fill c) = true := by
  unfold fill standsFor
  split
  next h => simp [h]
  · simp

theorem isLetter_other (c : Char) : isLetter (other c) = true := by
  unfold other
  split <;> rfl

theorem standsFor_other (h : c ≠ '?') : standsFor c (other c) = false := by
  unfold other standsFor
  split
  next hA => simp [hA]
  next hA => simp [h, Ne.symm hA]

theorem isIdentifier_of_isLetter (h : isLetter c = true) (hcs : ∀ x ∈ cs, isWordChar x = true) :
    isIdentifier (c :: cs) = true := by
  rw [isIdentifier, h, List.all_eq_true.2 hcs]
  rfl

theorem Dataset.name_ofIdentifier {segment : List Char} (h : isIdentifier segment = true) :
    (Dataset.ofIdentifier segment h).name = segment := List.append_nil segment

theorem withoutStars_slashed (cs : List Char) : withoutStars (slashed cs) = slashed (withoutStars cs) := by
  rw [withoutStars, slashed, List.filter_map]
  refine congrArg (List.map _) (List.filter_congr fun c _ => ?_)
  show decide ((if c = '.' then '/' else c) ≠ '*') = _
  split
  next hdot => rw [hdot]; rfl
  · rfl

theorem withoutStars_of_not_mem (h : '*' ∉ cs) : withoutStars cs = cs := by
  refine List.filter_eq_self.2 fun c hc => ?_
  have hne : c ≠ '*' := fun heq => h (heq ▸ hc)
  simpa using hne

/-- A pattern whose first star is known, and a text the star stands for the middle of. -/
theorem globMatches_of_split {left right x middle y : List Char} (hleft : '*' ∉ left) (hx : left.length = x.length)
    (hagrees : agrees left x = true) (hy : (right.filter (· ≠ '*')).length = y.length)
    (hagrees' : agrees (right.filter (· ≠ '*')) y = true) :
    globMatches (resourceItems (left ++ '*' :: right)) (x ++ (middle ++ y)) = true := by
  have hself : left.filter (· ≠ '*') = left :=
    withoutStars_of_not_mem hleft
  have hitems : resourceItems (left ++ '*' :: right) = resourceItems left ++ (.star :: resourceItems right) := by
    rw [resourceItems, List.map_append]
    rfl
  rw [hitems, globMatches_append]
  exact ⟨x, middle ++ y, rfl, globMatches_of_agrees (by rw [hself, hx]) (by rw [hself]; exact hagrees),
    globMatches_star.2 ⟨middle, y, rfl, globMatches_of_agrees hy hagrees'⟩⟩

/-- A pattern that has a character after the first segment of its prefix names no beginning. -/
theorem exists_reached_of_mayStop {x : Char} {rest : List Char}
    (hplain : withoutStars pattern = c :: (word ++ x :: rest)) (hc : mayStart c = true)
    (hword : ∀ y ∈ word, isWordChar y = true) (hx : mayStop x = true) :
    ∃ d, reachesDataset pattern d = true ∧ matchesDataset pattern d = false := by
  have hsegment : isIdentifier (fill c :: word) = true := isIdentifier_of_isLetter (isLetter_fill hc) hword
  refine ⟨.ofIdentifier (fill c :: word) hsegment, ?_, ?_⟩
  · have hdot : c ≠ '.' := (not_special_of_mayStart hc).2.1
    have hstop : standsFor (if x = '.' then '/' else x) '/' = true := by
      unfold mayStop at hx
      simp only [Bool.or_eq_true, decide_eq_true_eq] at hx
      rcases hx with (hx | hx) | hx
      all_goals
        rw [hx]
        decide
    have hslashed := slashed_of_isWordChar hword
    rw [slashed] at hslashed
    rw [reachesDataset, hplain, slashed, List.map_cons, if_neg hdot, List.map_append, hslashed, List.map_cons]
    show agrees _ ((fill c :: word ++ []) ++ ['/']) = true
    rw [List.append_nil, List.cons_append, agrees_cons, standsFor_fill, Bool.true_and, agrees_append rfl,
      agrees_self, agrees_cons, hstop, agrees_nil_right]
    rfl
  · rw [← Bool.not_eq_true, matchesDataset, Dataset.name_ofIdentifier hsegment]
    intro hmatches
    have hfilter : pattern.filter (· ≠ '*') = (c :: (word ++ [x])) ++ rest := by
      rw [withoutStars] at hplain
      rw [hplain]
      simp
    have ⟨left, right, hsplit, hleft, _⟩ := List.filter_eq_append_iff.1 hfilter
    have hbracket : '[' ∉ left := fun hmem => by
      have hin : '[' ∈ left.filter (· ≠ '*') := List.mem_filter.2 ⟨hmem, by decide⟩
      rw [hleft, List.mem_cons, List.mem_append, List.mem_singleton] at hin
      rcases hin with heq | hin | heq
      · exact (not_special_of_mayStart hc).1 heq.symm
      · exact ne_of_isWordChar (hword _ hin) (by decide) rfl
      · rw [← heq] at hx
        exact absurd hx (by decide)
    rw [hsplit, List.length_append, fnmatchItemsFrom_append hbracket, globMatches_append] at hmatches
    have ⟨u, v, hname, hu, _⟩ := hmatches
    -- the characters of the pattern up to there are more than those of the name
    have hcount := countP_le_length hu
    have hlength := congrArg List.length hname
    rw [countP_resourceItems, hleft] at hcount
    simp only [List.length_cons, List.length_append, List.length_nil] at hcount hlength
    omega

theorem exists_reached_of_no_star (hplain : withoutStars pattern = c :: word) (hc : mayStart c = true)
    (hword : ∀ y ∈ word, isWordChar y = true) (hstar : '*' ∉ pattern) :
    ∃ d, reachesDataset pattern d = true ∧ matchesDataset pattern d = false := by
  have hsegment : isIdentifier (fill c :: (word ++ ['A'])) = true :=
    isIdentifier_of_isLetter (isLetter_fill hc) fun y hy => by
      rcases List.mem_append.1 hy with hy | hy
      · exact hword y hy
      · rw [List.mem_singleton.1 hy]
        decide
  refine ⟨.ofIdentifier (fill c :: (word ++ ['A'])) hsegment, ?_, ?_⟩
  · rw [reaches_iff_of_beginning hplain hc hword, Dataset.name_ofIdentifier hsegment, agrees_cons, standsFor_fill]
    have happend := @agrees_append word word [] ['A'] rfl
    rw [List.append_nil, agrees_self, agrees_nil_left] at happend
    rw [happend]
    exact ⟨by simp, rfl⟩
  · have hself : withoutStars pattern = pattern :=
      withoutStars_of_not_mem hstar
    rw [← Bool.not_eq_true, matchesDataset, Dataset.name_ofIdentifier hsegment,
      fnmatchItemsFrom_eq (bracket_not_mem hplain hc hword)]
    intro hmatches
    have hnone : GlobItem.star ∉ resourceItems pattern := fun hmem => by
      have ⟨y, hy, hitem⟩ := List.mem_map.1 hmem
      exact resourceItem_of_ne (fun heq => hstar (heq ▸ hy)) hitem
    have hlength := length_eq_of_no_star hmatches hnone
    have hpattern := congrArg List.length (hself.symm.trans hplain)
    simp only [resourceItems, List.length_map, List.length_cons, List.length_append, List.length_nil]
      at hlength hpattern
    omega

theorem exists_matched_of_inner_star (hplain : withoutStars pattern = c :: word) (hc : mayStart c = true)
    (hword : ∀ y ∈ word, isWordChar y = true) (hone : c :: word ≠ ['?']) (hstar : '*' ∈ pattern)
    (hbegins : ¬ withoutStars pattern <+: pattern) :
    ∃ d, matchesDataset pattern d = true ∧ reachesDataset pattern d = false := by
  have ⟨left, right, hsplit, hleft⟩ := List.eq_append_cons_of_mem hstar
  have hfilter : left ++ right.filter (· ≠ '*') = c :: word := by
    have hall := hplain
    rw [hsplit, withoutStars, List.filter_append, List.filter_cons_of_neg (by decide)] at hall
    rw [← hall]
    exact congrArg (· ++ _) (withoutStars_of_not_mem hleft).symm
  have hbracket := bracket_not_mem hplain hc hword
  -- it is enough to give the characters: those for the left part, some for the star, and those for the right part
  have hsuffices : ∀ segment x middle y, segment = x ++ (middle ++ y) → isIdentifier segment = true →
      left.length = x.length → agrees left x = true → (right.filter (· ≠ '*')).length = y.length →
      agrees (right.filter (· ≠ '*')) y = true → agrees (c :: word) segment = false →
      ∃ d, matchesDataset pattern d = true ∧ reachesDataset pattern d = false := by
    intro segment x middle y hsegment hidentifier hx hagreesx hy hagreesy hnot
    refine ⟨.ofIdentifier segment hidentifier, ?_, ?_⟩
    · rw [matchesDataset, fnmatchItemsFrom_eq hbracket, Dataset.name_ofIdentifier, hsegment, hsplit]
      exact globMatches_of_split hleft hx hagreesx hy hagreesy
    · rw [← Bool.not_eq_true, reaches_iff_of_beginning hplain hc hword, Dataset.name_ofIdentifier, hnot]
      exact fun h => absurd h.2 Bool.false_ne_true
  cases left with
  | nil =>
    rw [List.nil_append] at hfilter
    rw [hfilter] at hsuffices
    by_cases hquestion : c = '?'
    · cases word with
      | nil => exact absurd (by rw [hquestion]) hone
      | cons w word =>
        have hw := hword w List.mem_cons_self
        refine hsuffices ('A' :: other w :: w :: word) [] ['A'] (other w :: w :: word) rfl ?_ rfl rfl rfl ?_ ?_
        · refine isIdentifier_of_isLetter rfl fun y hy => ?_
          rcases List.mem_cons.1 hy with hy | hy
          · rw [hy]
            exact isWordChar_of_isLetter (isLetter_other w)
          · exact hword y hy
        · rw [hquestion, agrees_cons, agrees_self]
          rfl
        · rw [agrees_cons, agrees_cons, standsFor_other (ne_of_isWordChar hw (by decide)), Bool.false_and,
            Bool.and_false]
    · refine hsuffices (other c :: c :: word) [] [other c] (c :: word) rfl ?_ rfl rfl rfl (agrees_self _) ?_
      · refine isIdentifier_of_isLetter (isLetter_other c) fun y hy => ?_
        rcases List.mem_cons.1 hy with hy | hy
        · unfold mayStart at hc
          rw [decide_eq_false hquestion, Bool.or_false] at hc
          rw [hy]
          exact isWordChar_of_isLetter hc
        · exact hword y hy
      · rw [agrees_cons, standsFor_other hquestion, Bool.false_and]
  | cons first left =>
    cases hright : right.filter (· ≠ '*') with
    | nil =>
      rw [hright, List.append_nil] at hfilter
      refine absurd ?_ hbegins
      rw [hplain, ← hfilter, hsplit]
      exact List.prefix_append _ _
    | cons next rest =>
      rw [hright, List.cons_append] at hfilter
      injection hfilter with hfirst hfilter
      rw [hright] at hsuffices
      have hmem : ∀ y ∈ left ++ next :: rest, isWordChar y = true := by
        rw [hfilter]
        exact hword
      have hnext := hmem next (by simp)
      refine hsuffices (fill c :: left ++ ([other next] ++ next :: rest)) (fill c :: left) [other next] (next :: rest)
        rfl ?_ rfl ?_ rfl (agrees_self _) ?_
      · refine isIdentifier_of_isLetter (isLetter_fill hc) fun y hy => ?_
        rcases List.mem_append.1 hy with hy | hy
        · exact hmem y (List.mem_append_left _ hy)
        · rcases List.mem_append.1 hy with hy | hy
          · rw [List.mem_singleton.1 hy]
            exact isWordChar_of_isLetter (isLetter_other next)
          · exact hmem y (List.mem_append_right _ hy)
      · rw [hfirst, agrees_cons, standsFor_fill, agrees_self]
        rfl
      · rw [← hfilter, List.cons_append, agrees_cons, standsFor_fill, agrees_append rfl, agrees_self,
          List.singleton_append, agrees_cons, standsFor_other (ne_of_isWordChar hnext (by decide))]
        rfl

theorem reaches_iff_matches_iff (pattern : List Char) :
    (∀ d, reachesDataset pattern d = true ↔ matchesDataset pattern d = true) ↔
      OpenEnded pattern ∨ ¬ LeadsSomewhere (withoutStars pattern) ∧ ∀ d, matchesDataset pattern d = false := by
  constructor
  · intro h
    by_cases hleads : LeadsSomewhere (withoutStars pattern)
    · refine .inl ?_
      rcases hleads with hplain | ⟨c, word, rest, hplain, hc, hword, hrest⟩
      · refine ⟨?_, .inl hplain⟩
        -- the empty prefix reaches every dataset
        have hletter : isIdentifier ['A'] = true := rfl
        have hmatches := (h (.ofIdentifier ['A'] hletter)).1 (by rw [reachesDataset, hplain]; exact agrees_nil_left _)
        by_contra hstar
        rw [withoutStars_of_not_mem hstar] at hplain
        rw [hplain] at hmatches
        exact Bool.false_ne_true hmatches
      · cases rest with
        | cons x rest =>
          have ⟨d, hreaches, hmatches⟩ := exists_reached_of_mayStop hplain hc hword (hrest x rfl)
          rw [(h d).1 hreaches] at hmatches
          cases hmatches
        | nil =>
          rw [List.append_nil] at hplain
          by_cases hstar : '*' ∈ pattern
          · refine ⟨hstar, .inr ?_⟩
            by_cases hone : c :: word = ['?']
            · exact .inl (hplain.trans hone)
            · refine .inr ⟨?_, c, word, hplain, hc, hword⟩
              by_contra hbegins
              have ⟨d, hmatches, hreaches⟩ := exists_matched_of_inner_star hplain hc hword hone hstar hbegins
              rw [(h d).2 hmatches] at hreaches
              cases hreaches
          · have ⟨d, hreaches, hmatches⟩ := exists_reached_of_no_star hplain hc hword hstar
            rw [(h d).1 hreaches] at hmatches
            cases hmatches
    · refine .inr ⟨hleads, fun d => ?_⟩
      rw [← Bool.not_eq_true]
      exact fun hmatches => hleads (leadsSomewhere_of_reaches ((h d).2 hmatches))
  · rintro (hopen | ⟨hleads, hnone⟩) d
    · exact reaches_iff_matches_of_openEnded hopen d
    · rw [hnone d]
      exact ⟨fun hreaches => absurd (leadsSomewhere_of_reaches hreaches) hleads, nofun⟩

/-! ### The compiled document -/

theorem listsText_arr {texts : List String} {s : String} :
    listsText (some (.arr (texts.map .str))) s = true ↔ s ∈ texts := by
  rw [listsText, List.any_map, List.any_eq_true]
  constructor
  · rintro ⟨text, hmem, htext⟩
    have heq : text = s := of_decide_eq_true htext
    rwa [heq] at hmem
  · exact fun h => ⟨s, h, decide_eq_true rfl⟩

theorem documentAllows_policyDocument {bucket path action : String} {actions : List String} {arn : List Char}
    (haction : action ≠ "s3:ListBucket") : documentAllows action arn (policyDocument bucket path actions) = true ↔
      action ∈ actions ∧ globMatches (resourceItems (objectArn bucket (path.toList ++ ['*']))) arn = true := by
  have hlisting : ∀ more, statementAllows action arn (.obj ([("Effect", .str "Allow"),
      ("Action", .arr [.str "s3:ListBucket"]), ("Resource", .arr [.str ("arn:aws:s3:::" ++ bucket)])] ++ more)) =
        false := by
    intro more
    have hlists : listsText (some (.arr [.str "s3:ListBucket"])) action = false := by
      rw [← Bool.not_eq_true]
      intro h
      have hmem : action ∈ ["s3:ListBucket"] := listsText_arr.1 h
      exact haction (List.mem_singleton.1 hmem)
    show (_ && listsText (some (.arr [.str "s3:ListBucket"])) action && _) = false
    rw [hlists, Bool.and_false, Bool.false_and]
  have hresource : (if path = "" then "arn:aws:s3:::" ++ bucket ++ "/*"
      else "arn:aws:s3:::" ++ bucket ++ "/" ++ path ++ "*").toList = objectArn bucket (path.toList ++ ['*']) := by
    split
    next hempty => simp [objectArn, hempty]
    · simp [objectArn]
  have hobjects : statementAllows action arn (.obj [("Effect", .str "Allow"),
      ("Action", .arr ((sortBy id (actions.filter (· ≠ "s3:ListBucket"))).map .str)),
      ("Resource", .arr [.str (if path = "" then "arn:aws:s3:::" ++ bucket ++ "/*"
        else "arn:aws:s3:::" ++ bucket ++ "/" ++ path ++ "*")])]) = true ↔
      action ∈ actions ∧ globMatches (resourceItems (objectArn bucket (path.toList ++ ['*']))) arn = true := by
    show (_ && listsText (some (.arr (List.map _ _))) action && (globMatches _ arn || false)) = true ↔ _
    rw [hresource, Bool.or_false, Bool.and_eq_true, Bool.and_eq_true, listsText_arr, mem_sortBy, List.mem_filter,
      decide_eq_true haction]
    tauto
  rw [← hobjects]
  show List.any (_ ++ _) (statementAllows action arn) = true ↔ _
  rw [List.any_append, Bool.or_eq_true]
  constructor
  · rintro (h | h)
    · split at h
      · rw [List.any_cons, hlisting] at h
        cases h
      · cases h
    · split at h
      · cases h
      · rwa [List.any_cons, List.any_nil, Bool.or_false] at h
  · intro h
    refine .inr ?_
    split
    next hempty =>
      have hnone : actions.filter (· ≠ "s3:ListBucket") = [] := List.isEmpty_iff.1 hempty
      have hmem : action ∈ actions.filter (· ≠ "s3:ListBucket") :=
        List.mem_filter.2 ⟨(hobjects.1 h).1, decide_eq_true haction⟩
      rw [hnone] at hmem
      cases hmem
    · rwa [List.any_cons, List.any_nil, Bool.or_false]

theorem not_wildcard_of_isSqlIdentifier {s : String} (h : isSqlIdentifier s = true) :
    '*' ∉ s.toList ∧ '?' ∉ s.toList := by
  constructor
  all_goals
    intro hmem
    rcases mem_of_matchesClass h hmem with hc | hc | hc
    all_goals exact absurd hc (by decide)

/-- Some object of a dataset may be read under the document of a policy exactly if the prefix agrees with the path
of the dataset as far as both go. -/
theorem grants_iff_agrees {context : CompilerContext} {policy : PolicyRule} (hdataset : policy.resourceType = "dataset")
    (hbucket : isSqlIdentifier (resourcePrefix context policy).1 = true) (d : Dataset) :
    (∃ rest, documentAllows "s3:GetObject" (objectArn (resourcePrefix context policy).1 (d.path ++ '/' :: rest))
      (minioDocument context policy) = true) ↔ reachesDataset policy.resourceIdPattern.toList d = true := by
  have hactions : "s3:GetObject" ∈ minioActions policy.action := by
    unfold minioActions
    split <;> decide
  have hplain : '*' ∉ (resourcePrefix context policy).2.toList ∧
      (resourcePrefix context policy).2.toList = slashed (withoutStars policy.resourceIdPattern.toList) := by
    have hpath : (resourcePrefix context policy).2.toList = withoutStars (slashed policy.resourceIdPattern.toList) := by
      rw [resourcePrefix, if_pos hdataset]
      exact String.toList_ofList
    rw [hpath, withoutStars_slashed]
    refine ⟨fun hmem => ?_, rfl⟩
    rw [← withoutStars_slashed] at hmem
    simpa using (List.mem_filter.1 hmem).2
  have ⟨hstar, hone⟩ := not_wildcard_of_isSqlIdentifier hbucket
  have hallows : ∀ key, documentAllows "s3:GetObject" (objectArn (resourcePrefix context policy).1 key)
      (minioDocument context policy) = true ↔
      globMatches (resourceItems (slashed (withoutStars policy.resourceIdPattern.toList)) ++ [.star]) key = true := by
    intro key
    have hfront : ∀ t, objectArn (resourcePrefix context policy).1 t =
        ("arn:aws:s3:::" ++ (resourcePrefix context policy).1 ++ "/").toList ++ t := fun _ => rfl
    show documentAllows _ _
      (policyDocument (resourcePrefix context policy).1 (resourcePrefix context policy).2 _) = true ↔ _
    rw [documentAllows_policyDocument (by decide), and_iff_right hactions, hfront, hfront, hplain.2, resourceItems,
      List.map_append, List.map_append]
    show globMatches (resourceItems _ ++ (resourceItems _ ++ [.star])) _ = true ↔ _
    rw [globMatches_literal]
    · simpa using hstar
    · simpa using hone
  rw [reachesDataset, ← exists_globMatches_open (hplain.2 ▸ hplain.1)]
  refine exists_congr fun rest => ?_
  rw [hallows, List.append_assoc]
  rfl

variable {context : CompilerContext} {rbac : CanonicalRbac} {artifacts : List MinioArtifact} {role : String}
  {policy : PolicyRule}

/-- The document compiled for a policy on datasets lets the role read objects of exactly the datasets the pattern
matches, if and only if the pattern is open-ended, or matches no dataset and has a prefix that leads to none. -/
theorem dataset_document_exact_iff (h : minioCompile context rbac = .ok artifacts)
    (hdemands : Demands MINIO_POLICY_PAIRS rbac role policy) (hdataset : policy.resourceType = "dataset") :
    minioArtifact context policy role ∈ artifacts ∧
      ∃ document, (minioArtifact context policy role).statement = .json document ∧
        ((∀ d : Dataset, (∃ rest, documentAllows "s3:GetObject"
            (objectArn (resourcePrefix context policy).1 (d.path ++ '/' :: rest)) document = true) ↔
          matchesDataset policy.resourceIdPattern.toList d = true) ↔
        OpenEnded policy.resourceIdPattern.toList ∨ ¬ LeadsSomewhere (withoutStars policy.resourceIdPattern.toList) ∧
          ∀ d, matchesDataset policy.resourceIdPattern.toList d = false) := by
  have hbucket : isSqlIdentifier (resourcePrefix context policy).1 = true := by
    have ⟨l, hl, _⟩ := (mem_compilePolicies h).1 policy hdemands.1 hdemands.2.1
    have ⟨_, hchecked, _⟩ := bind_eq_ok.1 hl
    exact require_eq_ok.1 hchecked
  refine ⟨((mem_minioCompile h).1 role policy hdemands).1, minioDocument context policy, rfl, ?_⟩
  rw [← reaches_iff_matches_iff]
  exact forall_congr' fun d => by rw [grants_iff_agrees hdataset hbucket d]

def ordersPolicy : PolicyRule where
  policyId := "orders"
  principalRoles := ["analyst"]
  action := "dataset.read"
  resourceType := "dataset"
  resourceIdPattern := "sales.orders"

def ordersArchive : Dataset where
  first := "sales".toList
  more := ["orders_archive".toList]
  identifiers := by decide

/-- The pattern does not match the archive, and its document allows reading from it. -/
theorem orders_grants_archive :
    minioCompile {} ⟨[ordersPolicy]⟩ = .ok [minioArtifact {} ordersPolicy "analyst"] ∧
      matchesDataset ordersPolicy.resourceIdPattern.toList ordersArchive = false ∧
      documentAllows "s3:GetObject" (objectArn "lake" (ordersArchive.path ++ "/part-0".toList))
        (minioDocument {} ordersPolicy) = true :=
  ⟨rfl, by decide, by decide +kernel⟩

/-- A policy on all datasets whose names begin with `sales`. -/
def salesPolicy : PolicyRule := { ordersPolicy with resourceIdPattern := "sales*" }

theorem dataset_document_exact_iff_sales : OpenEnded "sales*".toList ∧
    ∀ d : Dataset, (∃ rest, documentAllows "s3:GetObject" (objectArn "lake" (d.path ++ '/' :: rest))
      (minioDocument {} salesPolicy) = true) ↔ matchesDataset "sales*".toList d = true := by
  have hopen : OpenEnded "sales*".toList :=
    ⟨by decide, .inr (.inr ⟨by decide, 's', "ales".toList, by decide, by decide, List.all_eq_true.1 (by decide)⟩)⟩
  have hcompiles : minioCompile {} ⟨[salesPolicy]⟩ = .ok [minioArtifact {} salesPolicy "analyst"] := rfl
  have hdemands : Demands MINIO_POLICY_PAIRS ⟨[salesPolicy]⟩ "analyst" salesPolicy :=
    ⟨List.mem_singleton.2 rfl, by decide, List.mem_singleton.2 rfl⟩
  have ⟨_, document, hdocument, hiff⟩ := dataset_document_exact_iff hcompiles hdemands rfl
  cases hdocument
  exact ⟨hopen, hiff.2 (.inl hopen)⟩

end Phlo.Rbac
