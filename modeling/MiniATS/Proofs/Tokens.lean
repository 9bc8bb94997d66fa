import Mathlib.Data.List.TakeWhile
import MiniATS.Server.CSVHandler

/-!
# `extractTokens`

As long as every separator stands where a `signed int` can hold the position behind it,
`extractTokens` drops the leading separators, splits the rest and keeps the fields up to the first
empty one (`extractTokens_eq`), and the fuel of the model's loop is above the rounds of the source's
(`extractTokens_ends`). So fields that are not empty and free of the separator are read back
from any text that has leading separators in front of them and ends behind them, or goes on with an
empty field (`fields_eq_iff`).
-/

namespace MiniATS

namespace CSVHandler

open Str

/-- The fields of a text up to the first empty one, after the leading separators. -/
def fields (separator : UInt8) (s : Str) : List Str :=
  ((s.dropWhile (· == separator)).splitOn separator).takeWhile (fun field => !field.isEmpty)

/-- A `signed int` holds the position behind every separator. -/
def Narrow (separator : UInt8) (s : Str) : Prop := ∀ i, s[i]? = some separator → i + 1 < 2 ^ 31

theorem narrow_of_length {separator : UInt8} {s : Str} (short : s.length < 2 ^ 31) : Narrow separator s := by
  intro i here
  have bound := (List.getElem?_eq_some_iff.mp here).1
  omega

section Positions

theorem toInt_of_lt {n : Nat} (small : n < 2 ^ 31) : toInt n = n := by
  unfold toInt
  rw [BitVec.toInt_eq_toNat_of_lt]
  · simp only [BitVec.toNat_ofNat]
    rw [Nat.mod_eq_of_lt (by omega)]
  · simp only [BitVec.toNat_ofNat]
    rw [Nat.mod_eq_of_lt (by omega)]
    omega

theorem toInt_npos : toInt npos = -1 := by decide

theorem toSizeT_natCast {n : Nat} (small : n < 2 ^ 64) : toSizeT n = n := by
  unfold toSizeT
  omega

end Positions

section Loop

variable {separator : UInt8} {s : Str}

/-- Where the next separator is. -/
theorem findFirstOf_cases (s : Str) (separator : UInt8) (i : Nat) :
    (separator ∉ s.drop i ∧ findFirstOf s separator i = npos) ∨
      ∃ field rest, s.drop i = field ++ separator :: rest ∧ separator ∉ field ∧
        findFirstOf s separator i = i + field.length := by
  unfold findFirstOf
  cases found : (s.drop i).findIdx? (· == separator) with
  | none =>
    left
    refine ⟨fun member => ?_, rfl⟩
    have none' := List.findIdx?_eq_none_iff.mp found separator member
    simp at none'
  | some k =>
    right
    obtain ⟨bound, here, before⟩ := List.findIdx?_eq_some_iff_getElem.mp found
    have split : s.drop i = (s.drop i).take k ++ separator :: (s.drop i).drop (k + 1) := by
      have isSeparator : (s.drop i)[k] = separator := by simpa using here
      rw [← isSeparator, List.getElem_cons_drop, List.take_append_drop]
    refine ⟨_, _, split, fun member => ?_, ?_⟩
    · obtain ⟨j, small, eq⟩ := List.mem_take_iff_getElem.mp member
      have apart := before j (by omega)
      simp [eq] at apart
    · simp only [List.length_take]
      omega

private theorem fields_of_free {field : Str} (free : separator ∉ field) :
    (field.splitOn separator).takeWhile (fun field => !field.isEmpty) =
      if field = [] then [] else [field] := by
  rw [List.splitOn_eq_singleton free]
  by_cases empty : field = []
  · simp [empty]
  · simp [empty]

private theorem fields_of_cons {field rest : Str} (free : separator ∉ field) :
    ((field ++ separator :: rest).splitOn separator).takeWhile (fun field => !field.isEmpty) =
      if field = [] then []
      else field :: (rest.splitOn separator).takeWhile (fun field => !field.isEmpty) := by
  rw [List.splitOn_append_cons_self_of_not_mem free]
  by_cases empty : field = []
  · simp [empty]
  · simp [empty]

/-- One round of the loop of `extractTokens` (`CSVHandler.cpp:15-23`): the start and the tokens of the
next round, or how the function ends. -/
def tokenRound (csvLine : Str) (separator : UInt8) (start : Int) (tokens : List Str) :
    (Int × List Str) ⊕ Except Exn (List Str) :=
  let end' := toInt (findFirstOf csvLine separator (toSizeT start))
  if toSizeT start = csvLine.length ∨ start = end' then .inr (.ok tokens)
  else if 0 ≤ end' then
    match substr csvLine (toSizeT start) (toSizeT (end' - start)) with
    | .error e => .inr (.error e)
    | .ok token => .inl (end' + 1, tokens ++ [token])
  else
    match substr csvLine (toSizeT start) (csvLine.length - toSizeT start) with
    | .error e => .inr (.error e)
    | .ok token => .inr (.ok (tokens ++ [token]))

/-- The loop ends with a result in the given number of rounds. -/
inductive LoopEnds (csvLine : Str) (separator : UInt8) :
    Nat → Int → List Str → Except Exn (List Str) → Prop
  | leaves {start : Int} {tokens : List Str} {result : Except Exn (List Str)}
    (round : tokenRound csvLine separator start tokens = .inr result) :
    LoopEnds csvLine separator 1 start tokens result
  | turns {rounds : Nat} {start start' : Int} {tokens tokens' : List Str} {result : Except Exn (List Str)}
    (round : tokenRound csvLine separator start tokens = .inl (start', tokens'))
    (rest : LoopEnds csvLine separator rounds start' tokens' result) :
    LoopEnds csvLine separator (rounds + 1) start tokens result

/-- The loop with fuel goes round by round. -/
theorem extractTokensLoop_succ (csvLine : Str) (separator : UInt8) (fuel : Nat) (start : Int)
    (tokens : List Str) : extractTokensLoop csvLine separator (fuel + 1) start tokens =
      match tokenRound csvLine separator start tokens with
      | .inl next => extractTokensLoop csvLine separator fuel next.1 next.2
      | .inr result => result := by
  unfold tokenRound
  rw [extractTokensLoop]
  dsimp only
  generalize toInt (findFirstOf csvLine separator (toSizeT start)) = end'
  by_cases leave : toSizeT start = csvLine.length ∨ start = end'
  · rw [if_pos leave, if_pos leave]
  · rw [if_neg leave, if_neg leave]
    by_cases found : 0 ≤ end'
    · rw [if_pos found, if_pos found]
      cases substr csvLine (toSizeT start) (toSizeT (end' - start)) <;> rfl
    · rw [if_neg found, if_neg found]
      cases substr csvLine (toSizeT start) (csvLine.length - toSizeT start) <;> rfl

/-- A loop that ends is not cut short by fuel for its rounds. -/
theorem LoopEnds.loop_eq {rounds fuel : Nat} {start : Int} {tokens : List Str}
    {result : Except Exn (List Str)} (ends : LoopEnds s separator rounds start tokens result)
    (enough : rounds ≤ fuel) : extractTokensLoop s separator fuel start tokens = result := by
  induction ends generalizing fuel with
  | leaves round =>
    obtain ⟨fuel, rfl⟩ : ∃ k, fuel = k + 1 := ⟨fuel - 1, by omega⟩
    rw [extractTokensLoop_succ, round]
  | turns round _ ih =>
    obtain ⟨fuel, rfl⟩ : ∃ k, fuel = k + 1 := ⟨fuel - 1, by omega⟩
    rw [extractTokensLoop_succ, round]
    apply ih
    omega

/-- A round takes the field at its position, or it is the last one. -/
theorem tokenRound_cases (narrow : Narrow separator s) {i : Nat} (tokens : List Str)
    (small : i < 2 ^ 31) (inside : i ≤ s.length) :
    (∃ field rest, s.drop i = field ++ separator :: rest ∧ separator ∉ field ∧ field ≠ [] ∧
        i + field.length < s.length ∧ i + field.length + 1 < 2 ^ 31 ∧
        tokenRound s separator i tokens = .inl ((i + field.length + 1 : Nat), tokens ++ [field])) ∨
      tokenRound s separator i tokens =
        .inr (.ok (tokens ++ ((s.drop i).splitOn separator).takeWhile (fun field => !field.isEmpty))) := by
  have position : toSizeT (i : Int) = i := toSizeT_natCast (by omega)
  unfold tokenRound
  simp only [position]
  rcases findFirstOf_cases s separator i with ⟨free, none'⟩ | ⟨field, rest, split, free, found⟩
  · right
    rw [none', toInt_npos, fields_of_free free]
    by_cases ended : i = s.length
    · rw [if_pos (Or.inl ended), if_pos (by rw [ended, List.drop_length]), List.append_nil]
    · have some' : s.drop i ≠ [] := by
        rw [Ne, List.drop_eq_nil_iff]
        omega
      have apart : ¬ (i = s.length ∨ (i : Int) = -1) := by omega
      rw [if_neg apart, if_neg (by decide), if_neg some']
      unfold substr
      rw [if_neg (by omega), List.take_of_length_le (by simp)]
  · have here : s[i + field.length]? = some separator := by
      rw [← List.getElem?_drop, split, List.getElem?_append_right (le_refl _)]
      simp
    have bound := narrow _ here
    have within := (List.getElem?_eq_some_iff.mp here).1
    rw [found, toInt_of_lt (by omega)]
    by_cases empty : field = []
    · right
      rw [split, fields_of_cons free, if_pos empty]
      subst empty
      simp
    · left
      have some' : 0 < field.length := List.length_pos_iff.mpr empty
      have apart : ¬ (i = s.length ∨ (i : Int) = ((i + field.length : Nat) : Int)) := by omega
      have width : toSizeT (((i + field.length : Nat) : Int) - i) = field.length := by
        have : ((i + field.length : Nat) : Int) - i = (field.length : Nat) := by omega
        rw [this]
        exact toSizeT_natCast (by omega)
      have token : substr s i field.length = .ok field := by
        unfold substr
        rw [if_neg (by omega), split, List.take_left]
      refine ⟨field, rest, split, free, empty, within, bound, ?_⟩
      rw [if_neg apart, if_pos (by omega), width, token]
      rfl

/-- From a position on, the loop appends the fields up to the first empty one and ends: every round
but the last passes a separator. -/
theorem loopEnds_fields (narrow : Narrow separator s) {i : Nat} (tokens : List Str)
    (small : i < 2 ^ 31) (inside : i ≤ s.length) : ∃ rounds, rounds ≤ s.length - i + 1 ∧
      LoopEnds s separator rounds i tokens
        (.ok (tokens ++ ((s.drop i).splitOn separator).takeWhile (fun field => !field.isEmpty))) := by
  induction left : s.length - i using Nat.strong_induction_on generalizing i tokens with
  | _ n ih =>
    rcases tokenRound_cases narrow tokens small inside with
      ⟨field, rest, split, free, filled, within, bound, round⟩ | last
    · have next : s.drop (i + field.length + 1) = rest := by
        rw [← List.drop_drop, ← List.drop_drop, split, List.drop_left]
        rfl
      obtain ⟨rounds, few, ends⟩ := ih (s.length - (i + field.length + 1)) (by omega)
        (tokens ++ [field]) bound within rfl
      refine ⟨rounds + 1, by omega, .turns round ?_⟩
      rw [next, List.append_assoc] at ends
      rwa [split, fields_of_cons free, if_neg filled]
    · exact ⟨1, by omega, .leaves last⟩

/-- Where the leading separators end. -/
theorem findFirstNotOf_cases (s : Str) (separator : UInt8) :
    ((∀ c ∈ s, c = separator) ∧ s.dropWhile (· == separator) = [] ∧ findFirstNotOf s separator 0 = npos) ∨
      ∃ i, i < s.length ∧ (∀ j, j < i → s[j]? = some separator) ∧
        s.dropWhile (· == separator) = s.drop i ∧ findFirstNotOf s separator 0 = i := by
  unfold findFirstNotOf
  rw [List.drop_zero]
  cases found : s.findIdx? (· != separator) with
  | none =>
    left
    have all : ∀ c ∈ s, c = separator := by
      intro c member
      simpa using List.findIdx?_eq_none_iff.mp found c member
    exact ⟨all, List.dropWhile_eq_nil_iff.mpr fun c member => by simpa using all c member, rfl⟩
  | some i =>
    right
    obtain ⟨bound, here, before⟩ := List.findIdx?_eq_some_iff_getElem.mp found
    refine ⟨i, bound, fun j less => ?_, ?_, by simp⟩
    · have inside : j < s.length := by omega
      rw [List.getElem?_eq_getElem inside]
      simpa using before j less
    · have lead : ∀ c ∈ s.take i, (c == separator) = true := by
        intro c member
        obtain ⟨j, small, eq⟩ := List.mem_take_iff_getElem.mp member
        simpa [eq] using before j (by omega)
      conv_lhs => rw [← List.take_append_drop i s]
      rw [List.dropWhile_append_of_pos lead, List.drop_eq_getElem_cons bound]
      exact List.dropWhile_cons_of_neg (by simpa using here)

/-- The loop of `extractTokens` ends with the fields of the text. -/
theorem extractTokens_ends (narrow : Narrow separator s) : ∃ rounds, rounds ≤ s.length + 1 ∧
    LoopEnds s separator rounds (toInt (findFirstNotOf s separator 0)) [] (.ok (fields separator s)) := by
  unfold fields
  rcases findFirstNotOf_cases s separator with ⟨all, none', found⟩ | ⟨i, bound, lead, rest, found⟩
  · have short : s.length ≤ 2 ^ 31 := by
      by_contra long
      have last : s[s.length - 1]? = some separator := by
        rw [List.getElem?_eq_getElem (by omega), all _ (List.getElem_mem _)]
      have := narrow _ last
      omega
    have nothing : findFirstOf s separator (toSizeT (-1)) = npos := by
      have past : s.drop (toSizeT (-1)) = [] := by
        rw [List.drop_eq_nil_iff, show toSizeT (-1) = 2 ^ 64 - 1 from by decide]
        omega
      rcases findFirstOf_cases s separator (toSizeT (-1)) with ⟨-, none'⟩ | ⟨field, rest, split, -, -⟩
      · exact none'
      · rw [past] at split
        simp at split
    refine ⟨1, by omega, .leaves ?_⟩
    rw [found, toInt_npos, none']
    unfold tokenRound
    dsimp only
    rw [nothing, toInt_npos, if_pos (Or.inr rfl)]
    rfl
  · have small : i < 2 ^ 31 := by
      cases i with
      | zero => omega
      | succ k => exact narrow k (lead k (by omega))
    obtain ⟨rounds, few, ends⟩ := loopEnds_fields narrow [] small (by omega)
    refine ⟨rounds, by omega, ?_⟩
    rw [found, toInt_of_lt small, rest]
    exact ends

/-- `extractTokens` gives the fields of a text. -/
theorem extractTokens_eq (narrow : Narrow separator s) :
    extractTokens s separator = .ok (fields separator s) := by
  obtain ⟨rounds, few, ends⟩ := extractTokens_ends narrow
  unfold extractTokens
  apply ends.loop_eq
  omega

end Loop

section Shape

variable {separator : UInt8} {s : Str}

/-- How a text can go on behind its last token: not at all, or with an empty field. -/
def Ends (separator : UInt8) (rest : Str) : Prop :=
  rest = [] ∨ rest = [separator] ∨ ∃ more, rest = separator :: separator :: more

/-- A list of fields that are not empty and free of the separator. -/
def Proper (separator : UInt8) (tokens : List Str) : Prop :=
  ∀ token ∈ tokens, token ≠ [] ∧ separator ∉ token

theorem proper_cons {token : Str} {tokens : List Str} :
    Proper separator (token :: tokens) ↔ (token ≠ [] ∧ separator ∉ token) ∧ Proper separator tokens :=
  List.forall_mem_cons

theorem intercalate_cons {token : Str} {tokens : List Str} (some' : tokens ≠ []) :
    [separator].intercalate (token :: tokens) = token ++ separator :: [separator].intercalate tokens := by
  rw [List.intercalate_cons_of_ne_nil some', List.append_assoc]
  rfl

/-- A text without a field before the first empty one is empty or begins with the separator. -/
private theorem head_of_no_field
    (none' : (s.splitOn separator).takeWhile (fun field => !field.isEmpty) = []) :
    s = [] ∨ ∃ more, s = separator :: more := by
  by_cases member : separator ∈ s
  · obtain ⟨field, rest, rfl, free⟩ := List.eq_append_cons_of_mem member
    rw [fields_of_cons free] at none'
    split at none'
    · rename_i empty
      exact Or.inr ⟨rest, by rw [empty]; rfl⟩
    · cases none'
  · rw [fields_of_free member] at none'
    split at none'
    · exact Or.inl (by assumption)
    · cases none'

private theorem shape_of_fields {tokens : List Str} (some' : tokens ≠ [])
    (split : (s.splitOn separator).takeWhile (fun field => !field.isEmpty) = tokens) :
    Proper separator tokens ∧ ∃ rest, s = [separator].intercalate tokens ++ rest ∧ Ends separator rest := by
  induction tokens generalizing s with
  | nil => exact absurd rfl some'
  | cons token tokens ih =>
    by_cases member : separator ∈ s
    · obtain ⟨field, rest, rfl, free⟩ := List.eq_append_cons_of_mem member
      rw [fields_of_cons free] at split
      split at split
      · cases split
      · rename_i filled
        obtain ⟨rfl, others⟩ := List.cons.inj split
        by_cases last : tokens = []
        · subst last
          refine ⟨proper_cons.mpr ⟨⟨filled, free⟩, fun _ none' => nomatch none'⟩, separator :: rest, ?_, ?_⟩
          · rw [List.intercalate_singleton]
          · rcases head_of_no_field others with rfl | ⟨more, rfl⟩
            · exact Or.inr (Or.inl rfl)
            · exact Or.inr (Or.inr ⟨more, rfl⟩)
        · obtain ⟨proper, rest', rfl, ends⟩ := ih last others
          refine ⟨proper_cons.mpr ⟨⟨filled, free⟩, proper⟩, rest', ?_, ends⟩
          rw [intercalate_cons last, List.append_assoc, List.cons_append]
    · rw [fields_of_free member] at split
      split at split
      · cases split
      · rename_i filled
        obtain ⟨rfl, rfl⟩ := List.cons.inj split
        refine ⟨proper_cons.mpr ⟨⟨filled, member⟩, fun _ none' => nomatch none'⟩, [], ?_, Or.inl rfl⟩
        rw [List.intercalate_singleton, List.append_nil]

theorem fields_proper (separator : UInt8) (s : Str) : Proper separator (fields separator s) := by
  by_cases none' : fields separator s = []
  · rw [none']
    exact List.forall_mem_nil _
  · exact (shape_of_fields none' rfl).1

private theorem fields_of_ends {rest : Str} (ends : Ends separator rest) {field : Str}
    (filled : field ≠ []) (free : separator ∉ field) :
    ((field ++ rest).splitOn separator).takeWhile (fun field => !field.isEmpty) = [field] := by
  rcases ends with rfl | rfl | ⟨more, rfl⟩
  · rw [List.append_nil, fields_of_free free, if_neg filled]
  · rw [fields_of_cons free, if_neg filled, fields_of_free (by simp), if_pos rfl]
  · rw [fields_of_cons free, if_neg filled]
    have empty := @fields_of_cons separator [] more List.not_mem_nil
    rw [List.nil_append] at empty
    rw [empty, if_pos rfl]

private theorem fields_of_shape {tokens : List Str} (some' : tokens ≠ []) (proper : Proper separator tokens)
    {rest : Str} (ends : Ends separator rest) :
    (([separator].intercalate tokens ++ rest).splitOn separator).takeWhile (fun field => !field.isEmpty) =
      tokens := by
  induction tokens with
  | nil => exact absurd rfl some'
  | cons token tokens ih =>
    obtain ⟨⟨filled, free⟩, others⟩ := proper_cons.mp proper
    by_cases last : tokens = []
    · subst last
      rw [List.intercalate_singleton]
      exact fields_of_ends ends filled free
    · rw [intercalate_cons last, List.append_assoc, List.cons_append, fields_of_cons free, if_neg filled,
        ih last others]

private theorem dropWhile_lead (separator : UInt8) (s : Str) :
    ∃ lead, s = List.replicate lead separator ++ s.dropWhile (· == separator) := by
  refine ⟨(s.takeWhile (· == separator)).length, ?_⟩
  have same : s.takeWhile (· == separator) =
      List.replicate (s.takeWhile (· == separator)).length separator := by
    refine List.eq_replicate_iff.mpr ⟨rfl, fun c member => ?_⟩
    simpa using List.mem_takeWhile_imp member
  rw [← same, List.takeWhile_append_dropWhile]

private theorem lead_dropped {tokens : List Str} (some' : tokens ≠ []) (proper : Proper separator tokens)
    (lead : Nat) (rest : Str) :
    (List.replicate lead separator ++ [separator].intercalate tokens ++ rest).dropWhile (· == separator) =
      [separator].intercalate tokens ++ rest := by
  rw [List.append_assoc, List.dropWhile_append_of_pos (by simp)]
  cases tokens with
  | nil => exact absurd rfl some'
  | cons token tokens =>
    obtain ⟨⟨filled, free⟩, -⟩ := proper_cons.mp proper
    obtain ⟨c, token', rfl⟩ := List.exists_cons_of_ne_nil filled
    have apart : c ≠ separator := fun eq => free (eq ▸ List.mem_cons_self)
    have head : ∃ more, [separator].intercalate ((c :: token') :: tokens) = c :: more := by
      by_cases last : tokens = []
      · subst last
        exact ⟨token', by rw [List.intercalate_singleton]⟩
      · exact ⟨_, by rw [intercalate_cons last, List.cons_append]⟩
    obtain ⟨more, eq⟩ := head
    rw [eq, List.cons_append, List.dropWhile_cons_of_neg (by simpa using apart)]

/-- A text has the tokens `tokens` when it is made of leading separators, the tokens with one
separator between any two, and an end. -/
theorem fields_eq_iff {tokens : List Str} (some' : tokens ≠ []) : fields separator s = tokens ↔
    Proper separator tokens ∧ ∃ lead rest, s = List.replicate lead separator ++
      [separator].intercalate tokens ++ rest ∧ Ends separator rest := by
  constructor
  · intro split
    obtain ⟨proper, rest, eq, ends⟩ := shape_of_fields some' split
    obtain ⟨lead, whole⟩ := dropWhile_lead separator s
    refine ⟨proper, lead, rest, ?_, ends⟩
    rw [List.append_assoc, ← eq]
    exact whole
  · rintro ⟨proper, lead, rest, rfl, ends⟩
    unfold fields
    rw [lead_dropped some' proper]
    exact fields_of_shape some' proper ends

end Shape

end CSVHandler

end MiniATS
