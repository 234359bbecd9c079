import Mathlib.Data.List.Infix
import Mathlib.Data.List.TakeWhile
import Mathlib.Logic.Function.Basic
import Mathlib.Tactic.Linarith
import ChainWatch.Settings.Template

/-!
# Filling in placeholders one after the other

When placeholders are filled in one after the other, each value goes wherever the text has the
placeholder by then. That may be in more places than the placeholder was written in: a value may
hold it, and a value that is put between its parts, or an empty one that joins them, may complete
it. `fill_inTurn_iff` says that nothing else can go wrong: the text is that with the values put in
at once, and is so after each name, exactly if at its turn no name has a placeholder too many.
`fill_order_shows` gives a text that is filled in otherwise.
-/

namespace ChainWatch.Template

variable {env : Environment} {cs text pattern value name : List Char} {c : Char} {skip : Nat}

/-! ## Pieces of a text -/

/-- A text consists of characters and of placeholders. -/
inductive Piece where
  | char (c : Char)
  | named (name : List Char)
deriving DecidableEq

/-- The pieces of a text after dropping `skip` characters. -/
def pieces : (skip : Nat) → List Char → List Piece
  | _, [] => []
  | skip + 1, _ :: rest => pieces skip rest
  | 0, c :: rest =>
    match nameAt? (c :: rest) with
    | some name => .named name :: pieces (name.length + 2) rest
    | none => .char c :: pieces 0 rest

/-- What a piece shows, where each name shows something. -/
def Piece.shown (shown : List Char → List Char) : Piece → List Char
  | char c => [c]
  | named name => shown name

def Piece.name? : Piece → Option (List Char)
  | char _ => none
  | named name => some name

@[simp] theorem Piece.name?_char (c : Char) : (char c).name? = none := rfl

@[simp] theorem Piece.name?_named (name : List Char) : (named name).name? = some name := rfl

theorem nameAt?_eq_some (h : nameAt? cs = some name) :
    (∃ rest, cs = placeholder name ++ rest) ∧ ∀ c ∈ name, isNameChar c = true := by
  unfold nameAt? at h
  split at h
  · next c rest =>
    split at h
    · next hstart =>
      dsimp only at h
      split at h
      · next hclosed =>
        obtain rfl := Option.some.inj h
        generalize hmore : rest.takeWhile isNameChar = more at hclosed ⊢
        obtain ⟨after, rfl⟩ : more <+: rest := hmore ▸ List.takeWhile_prefix isNameChar
        rw [List.drop_left, List.head?_eq_some_iff] at hclosed
        obtain ⟨closed, rfl⟩ := hclosed
        refine ⟨⟨closed, by simp [placeholder]⟩, fun d hd => ?_⟩
        rcases List.mem_cons.mp hd with rfl | hd
        · rw [isNameStart] at hstart
          rw [isNameChar]
          grind
        · exact List.mem_takeWhile_imp (hmore ▸ hd)
      · cases h
    · cases h
  · cases h

/-- The placeholders of a text are written where its pieces say. -/
theorem flatMap_pieces (skip : Nat) (cs : List Char) :
    (pieces skip cs).flatMap (Piece.shown placeholder) = cs.drop skip := by
  fun_induction pieces skip cs with
  | case1 => simp
  | case2 skip c rest ih => simpa using ih
  | case3 c rest name hname ih =>
    obtain ⟨⟨after, hsplit⟩, -⟩ := nameAt?_eq_some hname
    have hrest : rest.drop (name.length + 2) = after := by
      have hdrop := congrArg (List.drop (name.length + 3)) hsplit
      simpa [placeholder] using hdrop
    rw [List.flatMap_cons, ih, hrest, Piece.shown, ← hsplit, List.drop_zero]
  | case4 c rest hname ih => simpa [Piece.shown] using ih

theorem filterMap_pieces (skip : Nat) (cs : List Char) :
    (pieces skip cs).filterMap Piece.name? = names skip cs := by
  fun_induction pieces skip cs with
  | case1 => simp [names]
  | case2 skip c rest ih => simpa [names] using ih
  | case3 c rest name hname ih => simp [names, hname, Piece.name?, ih]
  | case4 c rest hname ih => rw [names, hname, List.filterMap_cons_none rfl, ih]

theorem flatMap_pieces_valueOf (env : Environment) (skip : Nat) (cs : List Char) :
    (pieces skip cs).flatMap (Piece.shown (valueOf env)) = fillFrom env skip cs := by
  fun_induction pieces skip cs with
  | case1 => simp [fillFrom]
  | case2 skip c rest ih => simpa [fillFrom] using ih
  | case3 c rest name hname ih => simp [fillFrom, hname, Piece.shown, ih]
  | case4 c rest hname ih => simp [fillFrom, hname, Piece.shown, ih]

theorem mem_names (hmem : name ∈ names skip cs) : ∀ c ∈ name, isNameChar c = true := by
  fun_induction names skip cs with
  | case1 => exact absurd hmem List.not_mem_nil
  | case2 skip c rest ih => exact ih hmem
  | case3 c rest found hfound ih =>
    rcases List.mem_cons.mp hmem with rfl | hmem
    · exact (nameAt?_eq_some hfound).2
    · exact ih hmem
  | case4 c rest hnone ih => exact ih hmem

/-! ## Replacing -/

theorem replaceAll_skip (pattern value : List Char) (skip : Nat) (cs : List Char) :
    replaceAll pattern value skip cs = replaceAll pattern value 0 (cs.drop skip) := by
  induction cs generalizing skip with
  | nil => simp [replaceAll]
  | cons c rest ih =>
    cases skip with
    | zero => rw [List.drop_zero]
    | succ skip => rw [replaceAll, ih, List.drop_succ_cons]

theorem replaceAll_append {c : Char} {tail : List Char} (value rest : List Char) :
    replaceAll (c :: tail) value 0 (c :: tail ++ rest)
      = value ++ replaceAll (c :: tail) value 0 rest := by
  have hfound : (c :: tail).isPrefixOf (c :: (tail ++ rest)) = true := by
    simp [List.isPrefixOf_iff_prefix]
  rw [List.cons_append, replaceAll, if_pos hfound, replaceAll_skip]
  simp

theorem replaceAll_cons (h : ¬ pattern <+: c :: cs) :
    replaceAll pattern value 0 (c :: cs) = c :: replaceAll pattern value 0 cs := by
  rw [replaceAll, if_neg (by rwa [List.isPrefixOf_iff_prefix])]

/-- The number of places at which a text has a pattern. -/
def places (pattern text : List Char) : Nat := text.tails.countP pattern.isPrefixOf

theorem places_cons (pattern : List Char) (c : Char) (cs : List Char) :
    places pattern (c :: cs) = places pattern cs + if pattern <+: c :: cs then 1 else 0 := by
  simp only [places, List.tails_cons, List.countP_cons, List.isPrefixOf_iff_prefix]

/-- A pattern that starts with a dollar sign has no place that starts with anything else. -/
theorem places_append_of_no_dollar {front : List Char} (hfront : '$' ∉ front)
    (tail rest : List Char) :
    places ('$' :: tail) (front ++ rest) = places ('$' :: tail) rest := by
  induction front with
  | nil => rfl
  | cons c front ih =>
    rw [List.mem_cons, not_or] at hfront
    obtain ⟨hc, hfront⟩ := hfront
    have hnot : ¬ '$' :: tail <+: c :: (front ++ rest) :=
      fun hbegins => hc (List.cons_prefix_cons.mp hbegins).1
    rw [List.cons_append, places_cons, if_neg hnot, ih hfront, Nat.add_zero]

/-! ## Marked texts

Where a pattern is to be replaced is marked: a marked text has `none` in these places. -/

/-- The text with a value in the marked places. -/
def spread (value : List Char) (marked : List (Option Char)) : List Char :=
  marked.flatMap fun mark? => mark?.elim value ([·])

@[simp] theorem spread_nil (value : List Char) : spread value [] = [] := rfl

@[simp] theorem spread_none (value : List Char) (rest : List (Option Char)) :
    spread value (none :: rest) = value ++ spread value rest := rfl

@[simp] theorem spread_some (value : List Char) (c : Char) (rest : List (Option Char)) :
    spread value (some c :: rest) = c :: spread value rest := rfl

@[simp] theorem spread_map_some_append (value front : List Char) (rest : List (Option Char)) :
    spread value (front.map some ++ rest) = front ++ spread value rest := by
  induction front with
  | nil => rfl
  | cons c front ih => rw [List.map_cons, List.cons_append, spread_some, ih, List.cons_append]

/-- How the search for a pattern goes through a marked text with the pattern in the marked places:
it finds the pattern there, and may find it in a place without a mark. -/
inductive Searched (pattern : List Char) : List (Option Char) → Prop
  | nil : Searched pattern []
  | mark {rest} : Searched pattern rest → Searched pattern (none :: rest)
  | plain {c rest} : ¬ pattern <+: c :: spread pattern rest → Searched pattern rest →
      Searched pattern (some c :: rest)
  | stray {rest} : Searched pattern rest → Searched pattern (pattern.map some ++ rest)

/-- Text without a dollar sign at the front comes before the first mark. -/
theorem eq_map_some_append {tail : List Char} {front : List Char} (hfront : '$' ∉ front) :
    ∀ {marked : List (Option Char)}, front <+: spread ('$' :: tail) marked →
      ∃ rest, marked = front.map some ++ rest := by
  induction front with
  | nil => exact fun _ => ⟨_, rfl⟩
  | cons c front ih =>
    rw [List.mem_cons, not_or] at hfront
    obtain ⟨hc, hfront⟩ := hfront
    rintro (_ | ⟨_ | d, rest⟩) hbegins
    · exact absurd (List.prefix_nil.mp hbegins) (List.cons_ne_nil _ _)
    · exact absurd (List.cons_prefix_cons.mp hbegins).1.symm hc
    · obtain ⟨rfl, hrest⟩ := List.cons_prefix_cons.mp hbegins
      obtain ⟨after, rfl⟩ := ih hfront hrest
      exact ⟨after, rfl⟩

theorem searched {tail : List Char} (htail : '$' ∉ tail) (marked : List (Option Char)) :
    Searched ('$' :: tail) marked := by
  match marked with
  | [] => exact .nil
  | none :: rest => exact .mark (searched htail rest)
  | some c :: rest =>
    by_cases hbegins : '$' :: tail <+: c :: spread ('$' :: tail) rest
    · -- the rest of the pattern has no dollar sign, so no mark is within it
      obtain ⟨rfl, hrest⟩ := List.cons_prefix_cons.mp hbegins
      obtain ⟨after, rfl⟩ := eq_map_some_append htail hrest
      exact .stray (searched htail after)
    · exact .plain hbegins (searched htail rest)
termination_by marked.length
decreasing_by all_goals subst_vars; simp; try omega

section Searching

variable {tail : List Char} {marked : List (Option Char)}

theorem places_found (htail : '$' ∉ tail) (rest : List Char) :
    places ('$' :: tail) ('$' :: tail ++ rest) = places ('$' :: tail) rest + 1 := by
  rw [List.cons_append, places_cons, if_pos (by simp), places_append_of_no_dollar htail]

/-- The pattern is found wherever it is marked. -/
theorem count_le_places (htail : '$' ∉ tail) (h : Searched ('$' :: tail) marked) :
    marked.count none ≤ places ('$' :: tail) (spread ('$' :: tail) marked) := by
  induction h with
  | nil => exact Nat.zero_le _
  | mark _ ih =>
    rw [spread_none, places_found htail, List.count_cons_self]
    exact Nat.succ_le_succ ih
  | plain _ _ ih =>
    rw [spread_some, places_cons, List.count_cons_of_ne (Option.some_ne_none _)]
    exact Nat.le_add_right_of_le ih
  | stray _ ih =>
    rw [spread_map_some_append, places_found htail, List.count_append,
      List.count_eq_zero.mpr (by simp), Nat.zero_add]
    exact Nat.le_succ_of_le ih

/-- Each place costs its pattern and gains its value. -/
theorem length_replaceAll (htail : '$' ∉ tail) (value : List Char)
    (h : Searched ('$' :: tail) marked) :
    (replaceAll ('$' :: tail) value 0 (spread ('$' :: tail) marked)).length
        + places ('$' :: tail) (spread ('$' :: tail) marked) * ('$' :: tail).length
      = (spread ('$' :: tail) marked).length
        + places ('$' :: tail) (spread ('$' :: tail) marked) * value.length := by
  induction h with
  | nil => simp [replaceAll, places]
  | mark _ ih | stray _ ih =>
    simp only [spread_none, spread_map_some_append, replaceAll_append, places_found htail,
      List.length_append, Nat.add_mul]
    omega
  | plain hplain _ ih =>
    simp only [spread_some, replaceAll_cons hplain, places_cons, if_neg hplain, List.length_cons,
      Nat.add_zero]
    simp only [List.length_cons] at ih
    omega

theorem length_spread (pattern value : List Char) (marked : List (Option Char)) :
    (spread value marked).length + marked.count none * pattern.length
      = (spread pattern marked).length + marked.count none * value.length := by
  induction marked with
  | nil => simp
  | cons mark? rest ih =>
    cases mark? with
    | none =>
      simp only [spread_none, List.length_append, List.count_cons_self, Nat.add_mul]
      omega
    | some c =>
      simp only [spread_some, List.length_cons, List.count_cons_of_ne (Option.some_ne_none c)]
      omega

theorem replaceAll_self (h : Searched ('$' :: tail) marked) :
    replaceAll ('$' :: tail) ('$' :: tail) 0 (spread ('$' :: tail) marked)
      = spread ('$' :: tail) marked := by
  induction h with
  | nil => rfl
  | mark _ ih | stray _ ih => simp only [spread_none, spread_map_some_append, replaceAll_append, ih]
  | plain hplain _ ih => rw [spread_some, replaceAll_cons hplain, ih]

/-- A replaced place without a mark shows, unless the value is the pattern itself. -/
theorem eq_pattern_of_stray (htail : '$' ∉ tail) {rest : List (Option Char)}
    (h : Searched ('$' :: tail) rest)
    (heq : value ++ replaceAll ('$' :: tail) value 0 (spread ('$' :: tail) rest)
      = '$' :: tail ++ spread value rest) :
    value = '$' :: tail := by
  -- lengths are enough: there are at least as many places as marks, and one more here
  have hreplaced := length_replaceAll htail value h
  have hspread := length_spread ('$' :: tail) value rest
  have hcount := count_le_places htail h
  have hlength := congrArg List.length heq
  simp only [List.length_append] at hlength
  have hsame : value.length = ('$' :: tail).length := by
    nlinarith
  exact (List.append_inj heq hsame).1

/-- Replacing a pattern fills exactly the marked places in if it stands nowhere else. -/
theorem replaceAll_spread_iff (htail : '$' ∉ tail) (value : List Char)
    (marked : List (Option Char)) :
    replaceAll ('$' :: tail) value 0 (spread ('$' :: tail) marked) = spread value marked ↔
      value = '$' :: tail ∨
        places ('$' :: tail) (spread ('$' :: tail) marked) = marked.count none := by
  -- the induction is on the search, which finds marked places and stray ones
  have h := searched htail marked
  by_cases hvalue : value = '$' :: tail
  · subst hvalue
    simp [replaceAll_self h]
  rw [or_iff_right hvalue]
  induction h with
  | nil => simp [replaceAll, places]
  | mark _ ih =>
    rw [spread_none, spread_none, replaceAll_append, places_found htail, List.count_cons_self,
      List.append_cancel_left_eq, Nat.add_right_cancel_iff]
    exact ih
  | plain hplain _ ih =>
    rw [spread_some, spread_some, replaceAll_cons hplain, places_cons, if_neg hplain,
      List.count_cons_of_ne (Option.some_ne_none _), List.cons.injEq, Nat.add_zero]
    exact (and_iff_right rfl).trans ih
  | stray hrest _ =>
    rw [spread_map_some_append, spread_map_some_append, replaceAll_append, places_found htail,
      List.count_append, List.count_eq_zero.mpr (by simp), Nat.zero_add]
    have hcount := count_le_places htail hrest
    constructor
    · exact fun heq => absurd (eq_pattern_of_stray htail hrest heq) hvalue
    · intro hplaces
      omega

end Searching

/-! ## One name after the other -/

/-- The text in which the placeholders of some names have been replaced, in this order. -/
def inTurn (env : Environment) (taken : List (List Char)) (cs : List Char) : List Char :=
  taken.foldl (fun filled name => replaceAll (placeholder name) (valueOf env name) 0 filled) cs

/-- What stands in place of a placeholder when some names have been taken. -/
def standing (env : Environment) (taken : List (List Char)) (name : List Char) : List Char :=
  if name ∈ taken then valueOf env name else placeholder name

/-- The text with the values of some names in place of their placeholders, all at once. -/
def atOnce (env : Environment) (taken : List (List Char)) (cs : List Char) : List Char :=
  (pieces 0 cs).flatMap (Piece.shown (standing env taken))

/-- A name whose turn it is changes the right places only: its placeholder is its value, or stands
where the text has it and, if it has been taken before, nowhere. -/
def Unmixed (env : Environment) (cs : List Char) (taken : List (List Char)) (name : List Char) :
    Prop :=
  valueOf env name = placeholder name ∨
    places (placeholder name) (atOnce env taken cs)
      = if name ∈ taken then 0 else (names 0 cs).count name

/-- The pieces of a text with the placeholders of one name marked. -/
def Piece.marked (name : List Char) (shown : List Char → List Char) : Piece → List (Option Char)
  | char c => [some c]
  | named other => if other = name then [none] else (shown other).map some

theorem spread_marked (name value : List Char) (shown : List Char → List Char) (piece : Piece) :
    spread value (piece.marked name shown) = piece.shown (Function.update shown name value) := by
  cases piece with
  | char c => rfl
  | named other =>
    rw [Piece.marked, Piece.shown, Function.update_apply]
    split
    · exact List.append_nil value
    · simpa using spread_map_some_append value (shown other) []

theorem spread_flatMap_marked (name value : List Char) (shown : List Char → List Char)
    (parts : List Piece) :
    spread value (parts.flatMap (Piece.marked name shown))
      = parts.flatMap (Piece.shown (Function.update shown name value)) := by
  rw [spread, List.flatMap_assoc]
  exact congrArg (parts.flatMap ·) (funext fun piece => spread_marked name value shown piece)

theorem count_none_flatMap_marked (name : List Char) (shown : List Char → List Char)
    (parts : List Piece) :
    (parts.flatMap (Piece.marked name shown)).count none
      = (parts.filterMap Piece.name?).count name := by
  induction parts with
  | nil => rfl
  | cons piece parts ih =>
    rw [List.flatMap_cons, List.count_append, ih]
    cases piece with
    | char c =>
      rw [List.filterMap_cons_none (Piece.name?_char c)]
      simp [Piece.marked]
    | named other =>
      rw [List.filterMap_cons_some (Piece.name?_named other), List.count_cons, Nat.add_comm,
        Piece.marked]
      by_cases hother : other = name <;> simp [hother, List.count_eq_zero]

theorem standing_concat (env : Environment) (taken : List (List Char)) (name : List Char) :
    standing env (taken ++ [name])
      = Function.update (standing env taken) name (valueOf env name) := by
  funext other
  by_cases hsame : other = name <;> simp [standing, hsame]

theorem placeholder_eq_cons (name : List Char) :
    placeholder name = '$' :: ('\x7b' :: name ++ ['\x7d']) := rfl

theorem dollar_not_mem_tail (hname : ∀ c ∈ name, isNameChar c = true) :
    '$' ∉ '\x7b' :: name ++ ['\x7d'] := by
  have hdollar : '$' ∉ name := fun hmem => absurd (hname '$' hmem) (by decide)
  simpa using hdollar

theorem replaceAll_atOnce_iff (env : Environment) (cs : List Char) (taken : List (List Char))
    (hname : ∀ c ∈ name, isNameChar c = true) :
    replaceAll (placeholder name) (valueOf env name) 0 (atOnce env taken cs)
        = atOnce env (taken ++ [name]) cs ↔ Unmixed env cs taken name := by
  have htail := dollar_not_mem_tail hname
  rw [Unmixed, atOnce, atOnce, standing_concat]
  have hself := Function.update_eq_self name (standing env taken)
  by_cases htaken : name ∈ taken
  · -- a name that was taken before should not stand anywhere any more, so nothing is marked
    rw [standing, if_pos htaken] at hself
    rw [if_pos htaken, hself]
    have hiff := replaceAll_spread_iff htail (valueOf env name)
      (((pieces 0 cs).flatMap (Piece.shown (standing env taken))).map some)
    have hplain : ∀ value text, spread value (text.map some) = text := fun value text => by
      simpa using spread_map_some_append value text []
    rwa [hplain, hplain, List.count_eq_zero.mpr (by simp)] at hiff
  · -- the placeholders of a new name are marked
    rw [standing, if_neg htaken] at hself
    rw [if_neg htaken]
    have hiff := replaceAll_spread_iff htail (valueOf env name)
      ((pieces 0 cs).flatMap (Piece.marked name (standing env taken)))
    rw [spread_flatMap_marked, spread_flatMap_marked, count_none_flatMap_marked,
      filterMap_pieces] at hiff
    rwa [← placeholder_eq_cons, hself] at hiff

theorem inTurn_concat (env : Environment) (taken : List (List Char)) (name cs : List Char) :
    inTurn env (taken ++ [name]) cs
      = replaceAll (placeholder name) (valueOf env name) 0 (inTurn env taken cs) :=
  List.foldl_concat _ _ _ _

theorem atOnce_nil (env : Environment) (cs : List Char) : atOnce env [] cs = cs := by
  have hstanding : standing env [] = placeholder := funext fun name => if_neg List.not_mem_nil
  rw [atOnce, hstanding, flatMap_pieces, List.drop_zero]

theorem atOnce_names (env : Environment) (cs : List Char) :
    atOnce env (names 0 cs) cs = fillFrom env 0 cs := by
  rw [← flatMap_pieces_valueOf, atOnce]
  refine List.flatMap_congr fun piece hpiece => ?_
  cases piece with
  | char c => rfl
  | named name =>
    have hname : name ∈ names 0 cs := by
      rw [← filterMap_pieces]
      exact List.mem_filterMap.mpr ⟨_, hpiece, rfl⟩
    rw [Piece.shown, Piece.shown, standing, if_pos hname]

theorem inTurn_eq_atOnce_iff (env : Environment) (cs : List Char) :
    (∀ taken, taken <+: names 0 cs → inTurn env taken cs = atOnce env taken cs) ↔
      ∀ taken name, taken ++ [name] <+: names 0 cs → Unmixed env cs taken name := by
  have hchars : ∀ {taken name}, taken ++ [name] <+: names 0 cs →
      ∀ c ∈ name, isNameChar c = true := fun hbegins =>
    mem_names (hbegins.subset (List.mem_append_right _ (List.mem_singleton_self _)))
  constructor
  · intro hequal taken name hbegins
    rw [← replaceAll_atOnce_iff env cs taken (hchars hbegins), ← hequal _ hbegins,
      inTurn_concat, hequal taken ((List.prefix_append taken [name]).trans hbegins)]
  · -- names are taken one after the other, so the list grows at its end
    intro hunmixed taken
    induction taken using List.reverseRecOn with
    | nil => exact fun _ => (atOnce_nil env cs).symm
    | append_singleton taken name ih =>
      intro hbegins
      rw [inTurn_concat, ih ((List.prefix_append taken [name]).trans hbegins)]
      exact (replaceAll_atOnce_iff env cs taken (hchars hbegins)).mpr (hunmixed taken name hbegins)

/-! ## Texts and values without further dollar signs -/

theorem closed_prefix_iff {closing : Char} {front other : List Char}
    (hfront : closing ∉ front) (hother : closing ∉ other) (rest : List Char) :
    front ++ [closing] <+: other ++ closing :: rest ↔ front = other := by
  induction front generalizing other with
  | nil =>
    cases other with
    | nil => simp
    | cons d other => grind
  | cons c front ih =>
    cases other with
    | nil => grind
    | cons d other =>
      rw [List.mem_cons, not_or] at hfront hother
      rw [List.cons_append, List.cons_append, List.cons_prefix_cons, List.cons.injEq,
        ih hfront.2 hother.2]

theorem placeholder_prefix_iff {other : List Char} (hname : ∀ c ∈ name, isNameChar c = true)
    (hother : ∀ c ∈ other, isNameChar c = true) (rest : List Char) :
    placeholder name <+: placeholder other ++ rest ↔ name = other := by
  have hclosing : isNameChar '\x7d' = false := by decide
  have hfree : ∀ {front : List Char}, (∀ c ∈ front, isNameChar c = true) → '\x7d' ∉ front :=
    fun hfront hmem => absurd (hfront _ hmem) (by simp [hclosing])
  simpa [placeholder, List.cons_prefix_cons] using
    closed_prefix_iff (hfree hname) (hfree hother) rest

theorem places_placeholder_append {other : List Char} (hname : ∀ c ∈ name, isNameChar c = true)
    (hother : ∀ c ∈ other, isNameChar c = true) (rest : List Char) :
    places (placeholder name) (placeholder other ++ rest)
      = places (placeholder name) rest + if other = name then 1 else 0 := by
  have htail := places_append_of_no_dollar (dollar_not_mem_tail hother)
    ('\x7b' :: name ++ ['\x7d']) rest
  have hfound := placeholder_prefix_iff hname hother rest
  rw [placeholder_eq_cons other, List.cons_append] at hfound ⊢
  rw [places_cons, placeholder_eq_cons name, htail, ← placeholder_eq_cons name]
  simp only [hfound, eq_comm (a := name)]

section Dollars

variable (taken : List (List Char)) (hname : ∀ c ∈ name, isNameChar c = true)
include hname

/-- Unless it brings other dollar signs in, a piece adds a place for its own placeholder only. -/
theorem places_shown_append {piece : Piece} (hdollar : piece ≠ .char '$')
    (hused : ∀ other, piece.name? = some other →
      '$' ∉ valueOf env other ∧ ∀ c ∈ other, isNameChar c = true) (rest : List Char) :
    places (placeholder name) (piece.shown (standing env taken) ++ rest)
      = places (placeholder name) rest
        + if name ∈ taken then 0 else if piece.name? = some name then 1 else 0 := by
  cases piece with
  | char c =>
    have hc : '$' ∉ [c] := fun hmem => hdollar (List.mem_singleton.mp hmem ▸ rfl)
    rw [Piece.shown, placeholder_eq_cons, places_append_of_no_dollar hc]
    simp
  | named other =>
    obtain ⟨hvalue, hchars⟩ := hused other rfl
    rw [Piece.shown, standing]
    by_cases htaken : other ∈ taken
    · rw [if_pos htaken, placeholder_eq_cons, places_append_of_no_dollar hvalue]
      by_cases hsame : other = name <;> simp_all
    · rw [if_neg htaken, places_placeholder_append hname hchars]
      by_cases hsame : other = name <;> simp_all

theorem places_flatMap_shown {parts : List Piece} (hdollar : Piece.char '$' ∉ parts)
    (hused : ∀ other ∈ parts.filterMap Piece.name?,
      '$' ∉ valueOf env other ∧ ∀ c ∈ other, isNameChar c = true) :
    places (placeholder name) (parts.flatMap (Piece.shown (standing env taken)))
      = if name ∈ taken then 0 else (parts.filterMap Piece.name?).count name := by
  induction parts with
  | nil => simp [places, placeholder]
  | cons piece parts ih =>
    rw [List.mem_cons, not_or] at hdollar
    have hpiece : ∀ other, piece.name? = some other →
        '$' ∉ valueOf env other ∧ ∀ c ∈ other, isNameChar c = true := fun other hother =>
      hused other (List.mem_filterMap.mpr ⟨piece, List.mem_cons_self, hother⟩)
    have hparts := ih hdollar.2 fun other hother => by
      obtain ⟨found, hfound, hother⟩ := List.mem_filterMap.mp hother
      exact hused other (List.mem_filterMap.mpr ⟨found, List.mem_cons_of_mem _ hfound, hother⟩)
    rw [List.flatMap_cons, places_shown_append taken hname (Ne.symm hdollar.1) hpiece, hparts]
    by_cases htaken : name ∈ taken
    · simp only [if_pos htaken]
    · simp only [if_neg htaken]
      cases piece with
      | char c => simp [List.filterMap_cons_none (Piece.name?_char c)]
      | named other =>
        simp [List.filterMap_cons_some (Piece.name?_named other), List.count_cons]

end Dollars

theorem unmixed_of_no_dollar (hdollar : Piece.char '$' ∉ pieces 0 cs)
    (hvalues : ∀ name ∈ names 0 cs, '$' ∉ valueOf env name) {taken : List (List Char)}
    (hname : name ∈ names 0 cs) :
    Unmixed env cs taken name := by
  have hplaces := places_flatMap_shown taken (mem_names hname) hdollar
    fun other hother => ⟨hvalues other (filterMap_pieces 0 cs ▸ hother),
      mem_names (filterMap_pieces 0 cs ▸ hother)⟩
  rw [filterMap_pieces] at hplaces
  exact .inr hplaces

/-- A text is filled in name after name as it is at once exactly if at its turn no name has a
placeholder too many. Then the whole text is filled in as at once; so is every text that has no
dollar signs but those of its placeholders, when the values it uses have none. -/
theorem fill_inTurn_iff (env : Environment) (text : String) :
    ((∀ taken, taken <+: names 0 text.toList →
        inTurn env taken text.toList = atOnce env taken text.toList) ↔
      ∀ taken name, taken ++ [name] <+: names 0 text.toList →
        Unmixed env text.toList taken name) ∧
    ((∀ taken name, taken ++ [name] <+: names 0 text.toList →
        Unmixed env text.toList taken name) →
      fill env text = fillAtOnce env text) ∧
    (Piece.char '$' ∉ pieces 0 text.toList →
      (∀ name ∈ names 0 text.toList, '$' ∉ valueOf env name) →
      fill env text = fillAtOnce env text) := by
  have hiff := inTurn_eq_atOnce_iff env text.toList
  have hfill : (∀ taken name, taken ++ [name] <+: names 0 text.toList →
      Unmixed env text.toList taken name) → fill env text = fillAtOnce env text := fun hunmixed => by
    have hall := hiff.mpr hunmixed _ (List.prefix_refl _)
    rw [atOnce_names] at hall
    exact congrArg String.ofList hall
  refine ⟨hiff, hfill, fun hdollar hvalues => hfill fun taken name hbegins => ?_⟩
  exact unmixed_of_no_dollar hdollar hvalues
    (hbegins.subset (List.mem_append_right _ (List.mem_singleton_self _)))

/-- An environment in which the value of one variable is the placeholder of another. -/
def referring : Environment := fun name =>
  if name = "A" then some "$\x7bB\x7d" else if name = "B" then some "x" else none

/-- Both ways agree on a text that uses the other variable only. -/
theorem fill_referring_unused :
    fill referring "b=$\x7bB\x7d$\x7bC\x7d" = fillAtOnce referring "b=$\x7bB\x7d$\x7bC\x7d" ∧
      fill referring "b=$\x7bB\x7d$\x7bC\x7d" = "b=x" := by
  have hfilled := (fill_inTurn_iff referring "b=$\x7bB\x7d$\x7bC\x7d").2.2
    (by decide +kernel) (by decide +kernel)
  exact ⟨hfilled, by decide +kernel⟩

/-- A value that holds a placeholder is filled in again if the name in it comes later, so the text
depends on the order of the placeholders. -/
theorem fill_order_shows :
    fillAtOnce referring "$\x7bA\x7d$\x7bB\x7d" = "$\x7bB\x7dx" ∧
      fill referring "$\x7bA\x7d$\x7bB\x7d" = "xx" ∧
      fillAtOnce referring "$\x7bB\x7d$\x7bA\x7d" = "x$\x7bB\x7d" ∧
      fill referring "$\x7bB\x7d$\x7bA\x7d" = "x$\x7bB\x7d" := by
  decide +kernel

end ChainWatch.Template
