import Mathlib.Data.List.Infix

/-!
# Wildcard patterns

A glob is a list of items, each for one character but the star, which is for any text.  `fnmatch` reads the
patterns of file names, with `*`, `?` and character classes in brackets; `resourceItems` those of access policies,
with `*` and `?` only.

* `globMatches_append` — what a pattern in two parts matches.
-/

namespace Phlo.Library

/-! ### Items -/

inductive ClassItem where
  | char (c : Char)
  | range (first last : Char)
  deriving DecidableEq

def ClassItem.contains : ClassItem → Char → Bool
  | char c, d => c = d
  | range first last, d => first ≤ d && d ≤ last

inductive GlobItem where
  | star
  | one
  | literal (c : Char)
  | oneOf (negated : Bool) (items : List ClassItem)
  deriving DecidableEq

def GlobItem.accepts : GlobItem → Char → Bool
  | star, _ => false
  | one, _ => true
  | literal c, d => d = c
  | oneOf negated items, d => (items.any fun item => item.contains d) != negated

def globMatches : List GlobItem → List Char → Bool
  | [], cs => cs.isEmpty
  | .star :: items, cs => cs.tails.any fun rest => globMatches items rest
  | item :: items, c :: cs => item.accepts c && globMatches items cs
  | _ :: _, [] => false

variable {cs : List Char} {items : List GlobItem}

theorem globMatches_nil : globMatches [] cs = true ↔ cs = [] := by
  rw [globMatches, List.isEmpty_iff]

theorem globMatches_star :
    globMatches (.star :: items) cs = true ↔ ∃ x y, cs = x ++ y ∧ globMatches items y = true := by
  rw [globMatches, List.any_eq_true]
  constructor
  · intro h
    have ⟨rest, hrest, hmatches⟩ := h
    have ⟨x, hx⟩ := (List.mem_tails rest cs).1 hrest
    exact ⟨x, rest, hx.symm, hmatches⟩
  · intro h
    have ⟨x, y, hcs, hmatches⟩ := h
    exact ⟨y, (List.mem_tails y cs).2 ⟨x, hcs.symm⟩, hmatches⟩

/-- Any other item stands for one character. -/
theorem globMatches_cons {item : GlobItem} (hitem : item ≠ .star) : globMatches (item :: items) cs = true ↔
      ∃ c rest, cs = c :: rest ∧ item.accepts c = true ∧ globMatches items rest = true := by
  cases cs with
  | nil =>
    have hnone : globMatches (item :: items) [] = false := by
      cases item with
      | star => exact absurd rfl hitem
      | _ => rfl
    rw [hnone]
    exact ⟨nofun, fun ⟨c, rest, h, _⟩ => by cases h⟩
  | cons c cs =>
    have hone : globMatches (item :: items) (c :: cs) = (item.accepts c && globMatches items cs) := by
      cases item with
      | star => exact absurd rfl hitem
      | _ => rfl
    rw [hone, Bool.and_eq_true]
    constructor
    · exact fun h => ⟨c, cs, rfl, h⟩
    · rintro ⟨c', rest, h, haccepts⟩
      cases h
      exact haccepts

theorem globMatches_append {left right : List GlobItem} : globMatches (left ++ right) cs = true ↔
      ∃ x y, cs = x ++ y ∧ globMatches left x = true ∧ globMatches right y = true := by
  induction left generalizing cs with
  | nil =>
    constructor
    · exact fun h => ⟨[], cs, rfl, rfl, h⟩
    · rintro ⟨x, y, rfl, hx, hy⟩
      rw [globMatches_nil.1 hx]
      exact hy
  | cons item left ih =>
    by_cases hitem : item = .star
    · rw [hitem, List.cons_append, globMatches_star]
      constructor
      · rintro ⟨x, y, rfl, h⟩
        obtain ⟨x', y', rfl, hleft, hright⟩ := ih.1 h
        exact ⟨x ++ x', y', (List.append_assoc x x' y').symm, globMatches_star.2 ⟨x, x', rfl, hleft⟩, hright⟩
      · rintro ⟨x, y, rfl, hleft, hright⟩
        obtain ⟨x', y', rfl, hrest⟩ := globMatches_star.1 hleft
        exact ⟨x', y' ++ y, List.append_assoc x' y' y, ih.2 ⟨y', y, rfl, hrest, hright⟩⟩
    · rw [List.cons_append, globMatches_cons hitem]
      constructor
      · rintro ⟨c, rest, rfl, haccepts, h⟩
        obtain ⟨x, y, rfl, hleft, hright⟩ := ih.1 h
        exact ⟨c :: x, y, rfl, (globMatches_cons hitem).2 ⟨c, x, rfl, haccepts, hleft⟩, hright⟩
      · rintro ⟨x, y, rfl, hleft, hright⟩
        obtain ⟨c, rest, rfl, haccepts, hrest⟩ := (globMatches_cons hitem).1 hleft
        exact ⟨c, rest ++ y, rfl, haccepts, ih.2 ⟨rest, y, rfl, hrest, hright⟩⟩

/-! ### Patterns of file names -/

/-- What stands between a bracket and the bracket that closes it, and the rest of the pattern.  A closing bracket
at the front, after the sign of negation if there is one, stands for itself. -/
def splitBracket (cs : List Char) : Option (List Char × List Char) :=
  let sign := if cs.head? = some '!' then ['!'] else []
  let cs := cs.drop sign.length
  let first := if cs.head? = some ']' then [']'] else []
  let cs := cs.drop first.length
  match cs.dropWhile (· ≠ ']') with
  | [] => none
  | _ :: rest => some (sign ++ first ++ cs.takeWhile (· ≠ ']'), rest)

/-- The text between the hyphens that make ranges; the next `skip` characters are no such hyphens. -/
def splitHyphens : List Char → ℕ → List Char → List (List Char)
  | [], _, chunk => [chunk]
  | '-' :: cs, 0, chunk => chunk :: splitHyphens cs 2 []
  | c :: cs, skip, chunk => splitHyphens cs (skip - 1) (chunk ++ [c])

/-- The chunks of a class; a hyphen at its end stands for itself. -/
def classChunks (stuff : List Char) : List (List Char) :=
  let chunks := splitHyphens stuff (if stuff.head? = some '!' then 2 else 1) []
  if chunks.getLast? = some [] then
    match chunks.dropLast.reverse with
    | [] => chunks
    | last :: before => before.reverse ++ [last ++ ['-']]
  else chunks

def joinEmptyRanges : List (List Char) → List (List Char)
  | [] => []
  | chunk :: chunks =>
    match joinEmptyRanges chunks with
    | [] => [chunk]
    | next :: rest =>
      match chunk.getLast?, next.head? with
      | some first, some last => if last < first then (chunk.dropLast ++ next.tail) :: rest else chunk :: next :: rest
      | _, _ => chunk :: next :: rest

def classItems : List (Option Char) → List ClassItem
  | some first :: none :: some last :: rest => .range first last :: classItems rest
  | some c :: rest => .char c :: classItems rest
  | none :: rest => .char '-' :: classItems rest
  | [] => []

def bracketItem (stuff : List Char) : GlobItem :=
  let chars := [none].intercalate ((joinEmptyRanges (classChunks stuff)).map (List.map some))
  match chars with
  | some '!' :: chars => .oneOf true (classItems chars)
  | chars => .oneOf false (classItems chars)

def fnmatchItemsFrom : ℕ → List Char → List GlobItem
  | 0, _ => []
  | _ + 1, [] => []
  | fuel + 1, '*' :: cs => .star :: fnmatchItemsFrom fuel cs
  | fuel + 1, '?' :: cs => .one :: fnmatchItemsFrom fuel cs
  | fuel + 1, '[' :: cs =>
    match splitBracket cs with
    | none => .literal '[' :: fnmatchItemsFrom fuel cs
    | some (stuff, rest) => bracketItem stuff :: fnmatchItemsFrom fuel rest
  | fuel + 1, c :: cs => .literal c :: fnmatchItemsFrom fuel cs

def fnmatchItems (pattern : String) : List GlobItem := fnmatchItemsFrom pattern.toList.length pattern.toList

/-- `fnmatch.fnmatch`, where the case of file names matters -/
def fnmatch (name pattern : String) : Bool := globMatches (fnmatchItems pattern) name.toList

example : fnmatch "sales.orders" "sales.*" = true := by decide +kernel

example : fnmatch "run-7" "run-[!0-5]" = true := by decide +kernel

/-! ### Patterns of access policies -/

def resourceItem : Char → GlobItem
  | '*' => .star
  | '?' => .one
  | c => .literal c

/-- A resource of an access policy, as a pattern. -/
def resourceItems (resource : List Char) : List GlobItem := resource.map resourceItem

theorem resourceItem_of_ne {c : Char} (h : c ≠ '*') : resourceItem c ≠ .star := by
  unfold resourceItem
  split
  · exact absurd rfl h
  · exact nofun
  · exact nofun

def standsFor (p c : Char) : Bool := p = '?' || c = p

theorem accepts_resourceItem {p : Char} (h : p ≠ '*') (c : Char) : (resourceItem p).accepts c = standsFor p c := by
  unfold resourceItem standsFor
  split
  · exact absurd rfl h
  · rfl
  next hone =>
    rw [decide_eq_false hone, Bool.false_or]
    rfl

/-- The pattern and the text agree as far as both go. -/
def agrees : List Char → List Char → Bool
  | p :: ps, c :: cs => standsFor p c && agrees ps cs
  | _, _ => true

@[simp] theorem agrees_nil_left (cs : List Char) : agrees [] cs = true := by
  cases cs <;> rfl

@[simp] theorem agrees_nil_right (ps : List Char) : agrees ps [] = true := by
  cases ps <;> rfl

@[simp] theorem agrees_cons (p c : Char) (ps cs : List Char) :
    agrees (p :: ps) (c :: cs) = (standsFor p c && agrees ps cs) := rfl

theorem standsFor_self (c : Char) : standsFor c c = true := by simp [standsFor]

variable {ps : List Char}

/-- A pattern whose only star is at its end matches what it agrees with, if that is long enough. -/
theorem globMatches_open (hps : '*' ∉ ps) :
    globMatches (resourceItems ps ++ [.star]) cs = true ↔ ps.length ≤ cs.length ∧ agrees ps cs = true := by
  induction ps generalizing cs with
  | nil =>
    refine ⟨fun _ => ⟨Nat.zero_le _, agrees_nil_left cs⟩, fun _ => ?_⟩
    exact globMatches_star.2 ⟨cs, [], (List.append_nil cs).symm, rfl⟩
  | cons p ps ih =>
    have hp : p ≠ '*' := fun h => hps (h ▸ List.mem_cons_self)
    have hrest : '*' ∉ ps := fun h => hps (List.mem_cons_of_mem p h)
    show globMatches (resourceItem p :: (resourceItems ps ++ [.star])) cs = true ↔ _
    rw [globMatches_cons (resourceItem_of_ne hp)]
    cases cs with
    | nil => simp
    | cons c cs =>
      rw [agrees_cons, Bool.and_eq_true, List.length_cons, List.length_cons, Nat.add_le_add_iff_right]
      constructor
      · rintro ⟨c', rest, h, haccepts, hmatches⟩
        cases h
        have hmatches := (ih hrest).1 hmatches
        exact ⟨hmatches.1, by rw [← accepts_resourceItem hp]; exact haccepts, hmatches.2⟩
      · rintro ⟨hlength, hstands, hagrees⟩
        exact ⟨c, cs, rfl, by rw [accepts_resourceItem hp]; exact hstands, (ih hrest).2 ⟨hlength, hagrees⟩⟩

/-- A text that goes on as the pattern does. -/
theorem agrees_append_drop (ps cs : List Char) (h : agrees ps cs = true) :
    agrees ps (cs ++ ps.drop cs.length) = true ∧ ps.length ≤ (cs ++ ps.drop cs.length).length := by
  induction ps generalizing cs with
  | nil => exact ⟨agrees_nil_left _, Nat.zero_le _⟩
  | cons p ps ih =>
    cases cs with
    | nil =>
      have hself := ih [] (agrees_nil_right ps)
      rw [List.nil_append, List.length_nil, List.drop_zero] at hself ⊢
      exact ⟨by rw [agrees_cons, standsFor_self, hself.1, Bool.and_self], le_refl _⟩
    | cons c cs =>
      rw [agrees_cons, Bool.and_eq_true] at h
      have hrest := ih cs h.2
      exact ⟨by rw [List.length_cons, List.drop_succ_cons, List.cons_append, agrees_cons, h.1, hrest.1,
        Bool.and_self], Nat.succ_le_succ hrest.2⟩

theorem exists_globMatches_open (hps : '*' ∉ ps) :
    (∃ rest, globMatches (resourceItems ps ++ [.star]) (cs ++ rest) = true) ↔ agrees ps cs = true := by
  constructor
  · rintro ⟨rest, h⟩
    have hagrees := ((globMatches_open hps).1 h).2
    clear h
    induction ps generalizing cs with
    | nil => exact agrees_nil_left cs
    | cons p ps ih =>
      cases cs with
      | nil => exact agrees_nil_right _
      | cons c cs =>
        rw [List.cons_append, agrees_cons, Bool.and_eq_true] at hagrees
        rw [agrees_cons, hagrees.1, ih (fun h => hps (List.mem_cons_of_mem p h)) hagrees.2, Bool.and_self]
  · intro h
    have hgoes := agrees_append_drop ps cs h
    exact ⟨ps.drop cs.length, (globMatches_open hps).2 ⟨hgoes.2, hgoes.1⟩⟩

/-- Until the first bracket, a pattern of file names is read like one of access policies. -/
theorem fnmatchItemsFrom_append {left : List Char} (h : '[' ∉ left) (right : List Char) (fuel : ℕ) :
    fnmatchItemsFrom (left.length + fuel) (left ++ right) = resourceItems left ++ fnmatchItemsFrom fuel right := by
  induction left with
  | nil => simp [resourceItems]
  | cons c left ih =>
    have hc : c ≠ '[' := fun heq => h (heq ▸ List.mem_cons_self)
    have hrest := ih fun hmem => h (List.mem_cons_of_mem c hmem)
    rw [List.length_cons, Nat.add_right_comm, List.cons_append]
    show fnmatchItemsFrom (left.length + fuel + 1) (c :: (left ++ right)) =
      resourceItem c :: (resourceItems left ++ fnmatchItemsFrom fuel right)
    rw [← hrest]
    by_cases hstar : c = '*'
    · rw [hstar]
      rfl
    · by_cases hone : c = '?'
      · rw [hone]
        rfl
      · rw [fnmatchItemsFrom, resourceItem]
        all_goals assumption

theorem countP_le_length (h : globMatches items cs = true) : items.countP (· ≠ .star) ≤ cs.length := by
  induction items generalizing cs with
  | nil => exact Nat.zero_le _
  | cons item items ih =>
    by_cases hitem : item = .star
    · rw [hitem] at h
      have ⟨x, y, hcs, hrest⟩ := globMatches_star.1 h
      have hcount := ih hrest
      rw [hitem, List.countP_cons_of_neg (by simp), hcs, List.length_append]
      omega
    · have ⟨c, rest, hcs, _, hrest⟩ := (globMatches_cons hitem).1 h
      have hcount := ih hrest
      rw [List.countP_cons_of_pos (by simpa using hitem), hcs, List.length_cons]
      omega

theorem length_eq_of_no_star (h : globMatches items cs = true) (hitems : .star ∉ items) :
    cs.length = items.length := by
  induction items generalizing cs with
  | nil => rw [globMatches_nil.1 h, List.length_nil, List.length_nil]
  | cons item items ih =>
    have hitem : item ≠ .star := fun heq => hitems (heq ▸ List.mem_cons_self)
    have ⟨c, rest, hcs, _, hrest⟩ := (globMatches_cons hitem).1 h
    rw [hcs, List.length_cons, List.length_cons, ih hrest fun hmem => hitems (List.mem_cons_of_mem item hmem)]

/-- A text without wildcards at the front of a pattern. -/
theorem globMatches_literal {text : List Char} (hstar : '*' ∉ text) (hone : '?' ∉ text) (items : List GlobItem)
    (cs : List Char) : globMatches (resourceItems text ++ items) (text ++ cs) = globMatches items cs := by
  induction text with
  | nil => rfl
  | cons c text ih =>
    have hc : c ≠ '*' := fun h => hstar (h ▸ List.mem_cons_self)
    have hrest := ih (fun h => hstar (List.mem_cons_of_mem c h)) fun h => hone (List.mem_cons_of_mem c h)
    rw [← hrest, Bool.eq_iff_iff]
    show globMatches (resourceItem c :: (resourceItems text ++ items)) (c :: (text ++ cs)) = true ↔ _
    rw [globMatches_cons (resourceItem_of_ne hc)]
    constructor
    · rintro ⟨c', rest, h, _, hmatches⟩
      cases h
      exact hmatches
    · intro h
      exact ⟨c, text ++ cs, rfl, by rw [accepts_resourceItem hc, standsFor_self], h⟩

theorem countP_resourceItems (cs : List Char) :
    (resourceItems cs).countP (· ≠ .star) = (cs.filter (· ≠ '*')).length := by
  induction cs with
  | nil => rfl
  | cons c cs ih =>
    show (resourceItem c :: resourceItems cs).countP (· ≠ .star) = _
    by_cases hc : c = '*'
    · rw [hc, List.countP_cons_of_neg (by decide), ih, List.filter_cons_of_neg (by decide)]
    · rw [List.countP_cons_of_pos (by simpa using resourceItem_of_ne hc), ih,
        List.filter_cons_of_pos (by simpa using hc), List.length_cons]

theorem agrees_append {ps' cs' : List Char} (h : ps.length = cs.length) :
    agrees (ps ++ ps') (cs ++ cs') = (agrees ps cs && agrees ps' cs') := by
  induction ps generalizing cs with
  | nil =>
    rw [List.eq_nil_of_length_eq_zero h.symm]
    rfl
  | cons p ps ih =>
    cases cs with
    | nil => cases h
    | cons c cs =>
      rw [List.cons_append, List.cons_append, agrees_cons, agrees_cons, ih (Nat.succ.inj h), Bool.and_assoc]

theorem agrees_self (cs : List Char) : agrees cs cs = true := by
  induction cs with
  | nil => rfl
  | cons c cs ih => rw [agrees_cons, standsFor_self, ih, Bool.and_self]

/-- The stars of a pattern may stand for nothing. -/
theorem globMatches_of_agrees (hlength : (ps.filter (· ≠ '*')).length = cs.length)
    (h : agrees (ps.filter (· ≠ '*')) cs = true) : globMatches (resourceItems ps) cs = true := by
  induction ps generalizing cs with
  | nil => exact globMatches_nil.2 (List.eq_nil_of_length_eq_zero hlength.symm)
  | cons p ps ih =>
    by_cases hp : p = '*'
    · rw [hp, List.filter_cons_of_neg (by decide)] at h hlength
      rw [hp]
      exact globMatches_star.2 ⟨[], cs, rfl, ih hlength h⟩
    · rw [List.filter_cons_of_pos (by simpa using hp)] at h hlength
      cases cs with
      | nil => cases hlength
      | cons c cs =>
        rw [agrees_cons, Bool.and_eq_true] at h
        exact (globMatches_cons (resourceItem_of_ne hp)).2
          ⟨c, cs, rfl, by rw [accepts_resourceItem hp]; exact h.1, ih (Nat.succ.inj hlength) h.2⟩

theorem globMatches_stars (hne : ps ≠ []) (h : ps.filter (· ≠ '*') = []) (cs : List Char) :
    globMatches (resourceItems ps) cs = true := by
  cases ps with
  | nil => exact absurd rfl hne
  | cons p ps =>
    have hp : p = '*' := by
      by_contra hp
      rw [List.filter_cons_of_pos (by simpa using hp)] at h
      cases h
    rw [hp, List.filter_cons_of_neg (by decide)] at h
    rw [hp]
    refine globMatches_star.2 ⟨cs, [], (List.append_nil cs).symm, ?_⟩
    exact globMatches_of_agrees (by rw [h]) (by rw [h]; rfl)

/-- A pattern without brackets. -/
theorem fnmatchItemsFrom_eq {ps : List Char} (h : '[' ∉ ps) : fnmatchItemsFrom ps.length ps = resourceItems ps := by
  have happend := fnmatchItemsFrom_append h [] 0
  rw [Nat.add_zero, List.append_nil] at happend
  rw [happend]
  exact List.append_nil _

end Phlo.Library
