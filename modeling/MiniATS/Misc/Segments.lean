import Mathlib.Data.List.DropRight
import Mathlib.Data.List.Forall2
import Mathlib.Data.List.Sort

/-!
# A stream cut into segments

Two parties may cut one stream in different places. A segment's content is what is left of it
without the padding at its end; segments of padding alone count for nothing. Two cuts of one
stream have the same contents exactly when every item that is not padding lies in segments
that begin in the same place (`contents_eq_iff`).

When the contents are only known up to a gap at their ends, they are still the same
(`contents_eq_of_trails`): a gap moved from one content to the next is never made up for
(`Trails.eq_of_flatten`).
-/

namespace Segments

variable {α : Type*}

/-- The contents of the segments. -/
def contents (pad : α → Bool) (segments : List (List α)) : List (List α) :=
  (segments.map (List.rdropWhile pad)).filter (fun content => !content.isEmpty)

/-- Where the segment that holds the `i`-th item of the stream begins. -/
def beginning : List (List α) → Nat → Nat
  | [], _ => 0
  | segment :: segments, i =>
    if i < segment.length then 0 else segment.length + beginning segments (i - segment.length)

/-- The contents with the places where their segments begin. -/
def placed (pad : α → Bool) : Nat → List (List α) → List (Nat × List α)
  | _, [] => []
  | start, segment :: segments =>
    if segment.rdropWhile pad = [] then placed pad (start + segment.length) segments
    else (start, segment.rdropWhile pad) :: placed pad (start + segment.length) segments

section Contents

variable {pad : α → Bool} {segment : List α}

theorem contents_cons_pad (only : segment.rdropWhile pad = []) (segments : List (List α)) :
    contents pad (segment :: segments) = contents pad segments := by
  simp [contents, only]

theorem contents_cons (some' : segment.rdropWhile pad ≠ []) (segments : List (List α)) :
    contents pad (segment :: segments) = segment.rdropWhile pad :: contents pad segments := by
  simp [contents, some']

theorem placed_map_snd (pad : α → Bool) (start : Nat) (segments : List (List α)) :
    (placed pad start segments).map Prod.snd = contents pad segments := by
  induction segments generalizing start with
  | nil => rfl
  | cons segment segments ih =>
    unfold placed
    by_cases only : segment.rdropWhile pad = []
    · rw [if_pos only, contents_cons_pad only, ih]
    · rw [if_neg only, contents_cons only, List.map_cons, ih]

/-- What a content is: it ends in an item that is no padding. -/
theorem getLast_of_mem_contents {segments : List (List α)} {content : List α}
    (member : content ∈ contents pad segments) :
    ∃ before x, content = before ++ [x] ∧ pad x = false := by
  obtain ⟨inMap, nonempty⟩ := List.mem_filter.mp member
  obtain ⟨segment, -, rfl⟩ := List.mem_map.mp inMap
  have filled : segment.rdropWhile pad ≠ [] := by simpa using nonempty
  refine ⟨_, _, (List.dropLast_append_getLast filled).symm, ?_⟩
  simpa using List.rdropWhile_last_not pad segment filled

/-- Without the padding, the contents are the stream. -/
theorem flatten_filter_contents (pad : α → Bool) (segments : List (List α)) :
    ((contents pad segments).map (List.filter (fun x => !pad x))).flatten =
      segments.flatten.filter (fun x => !pad x) := by
  induction segments with
  | nil => rfl
  | cons segment segments ih =>
    have dropped : (segment.rtakeWhile pad).filter (fun x => !pad x) = [] := by
      apply List.filter_eq_nil_iff.mpr
      intro x member
      simp [List.mem_rtakeWhile_imp member]
    have own : segment.filter (fun x => !pad x) =
        (segment.rdropWhile pad).filter (fun x => !pad x) := by
      conv => lhs; rw [← List.rdropWhile_append_rtakeWhile (p := pad) (l := segment)]
      rw [List.filter_append, dropped, List.append_nil]
    rw [List.flatten_cons, List.filter_append, own]
    by_cases only : segment.rdropWhile pad = []
    · rw [contents_cons_pad only, ih, only, List.filter_nil, List.nil_append]
    · rw [contents_cons only, List.map_cons, List.flatten_cons, ih]

end Contents

section Places

variable {pad : α → Bool}

/-- The contents, found in the stream: from where the last one ended, padding that does not belong
to the content is skipped. -/
def locate (pad : α → Bool) : Nat → List α → List (List α) → List (Nat × List α)
  | _, _, [] => []
  | start, stream, content :: rest =>
    let skipped := (stream.takeWhile pad).length - (content.takeWhile pad).length
    (start + skipped, content) ::
      locate pad (start + skipped + content.length) (stream.drop (skipped + content.length)) rest

private theorem locate_cons (pad : α → Bool) (start : Nat) (stream content : List α)
    (rest : List (List α)) :
    locate pad start stream (content :: rest) =
      (start + ((stream.takeWhile pad).length - (content.takeWhile pad).length), content) ::
        locate pad
          (start + ((stream.takeWhile pad).length - (content.takeWhile pad).length) + content.length)
          (stream.drop
            ((stream.takeWhile pad).length - (content.takeWhile pad).length + content.length)) rest :=
  rfl

private theorem takeWhile_pads {pads stream : List α} (only : ∀ x ∈ pads, pad x = true) :
    ((pads ++ stream).takeWhile pad).length = pads.length + (stream.takeWhile pad).length := by
  rw [List.takeWhile_append_of_pos only, List.length_append]

/-- Padding at the beginning of the stream is skipped. -/
private theorem locate_pads {pads stream : List α} {found : List (List α)}
    (only : ∀ x ∈ pads, pad x = true)
    (enough : ∀ content ∈ found.head?, (content.takeWhile pad).length ≤ (stream.takeWhile pad).length)
    (start : Nat) :
    locate pad start (pads ++ stream) found = locate pad (start + pads.length) stream found := by
  cases found with
  | nil => rfl
  | cons content rest =>
    have bound := enough content rfl
    have skipped : pads.length + (stream.takeWhile pad).length - (content.takeWhile pad).length =
        pads.length + ((stream.takeWhile pad).length - (content.takeWhile pad).length) := by omega
    rw [locate_cons, locate_cons, takeWhile_pads only, skipped, Nat.add_assoc pads.length,
      ← List.drop_drop, List.drop_left, ← Nat.add_assoc start]

private theorem takeWhile_content {before after : List α} {x : α} (kept : pad x = false) :
    ((before ++ [x] ++ after).takeWhile pad) = (before ++ [x]).takeWhile pad := by
  rw [List.takeWhile_append, if_neg]
  intro all
  have whole := List.takeWhile_eq_self_iff.mp
    ((List.takeWhile_prefix pad (l := before ++ [x])).eq_of_length all) x (by simp)
  rw [kept] at whole
  cases whole

private theorem pads_of_eq_nil {segment : List α} (only : segment.rdropWhile pad = []) :
    ∀ x ∈ segment, pad x = true :=
  List.rdropWhile_eq_nil_iff.mp only

/-- A segment with a content: the content, padding, and what the content begins with. -/
private theorem cut_segment {segment : List α} (filled : segment.rdropWhile pad ≠ []) :
    ∃ pads, segment = segment.rdropWhile pad ++ pads ∧ (∀ x ∈ pads, pad x = true) ∧
      ∀ after, (segment.rdropWhile pad ++ after).takeWhile pad =
        (segment.rdropWhile pad).takeWhile pad := by
  refine ⟨segment.rtakeWhile pad, List.rdropWhile_append_rtakeWhile.symm,
    fun _ member => List.mem_rtakeWhile_imp member, fun after => ?_⟩
  have kept : pad ((segment.rdropWhile pad).getLast filled) = false := by
    simpa using List.rdropWhile_last_not pad segment filled
  rw [← List.dropLast_append_getLast filled]
  exact takeWhile_content kept

private theorem leading_le {segments : List (List α)} :
    ∀ content ∈ (contents pad segments).head?,
      (content.takeWhile pad).length ≤ (segments.flatten.takeWhile pad).length := by
  induction segments with
  | nil => intro content first; cases first
  | cons segment segments ih =>
    by_cases only : segment.rdropWhile pad = []
    · intro content first
      rw [contents_cons_pad only] at first
      rw [List.flatten_cons, takeWhile_pads (pads_of_eq_nil only)]
      exact (ih content first).trans (Nat.le_add_left _ _)
    · intro content first
      rw [contents_cons only] at first
      obtain rfl := Option.some.inj first
      obtain ⟨pads, cut, -, leading⟩ := cut_segment only
      conv => rhs; rw [List.flatten_cons, cut, List.append_assoc, leading]

/-- The stream and the contents say where the segments begin. -/
theorem locate_contents (pad : α → Bool) (start : Nat) (segments : List (List α)) :
    locate pad start segments.flatten (contents pad segments) = placed pad start segments := by
  induction segments generalizing start with
  | nil => rfl
  | cons segment segments ih =>
    by_cases only : segment.rdropWhile pad = []
    · rw [contents_cons_pad only, placed, if_pos only, List.flatten_cons,
        locate_pads (pads_of_eq_nil only) leading_le, ih]
    · obtain ⟨pads, cut, padding, leading⟩ := cut_segment only
      rw [contents_cons only, placed, if_neg only, ← ih]
      have stream : (segment :: segments).flatten =
          segment.rdropWhile pad ++ (pads ++ segments.flatten) := by
        conv => lhs; rw [List.flatten_cons, cut, List.append_assoc]
      have long : segment.length = (segment.rdropWhile pad).length + pads.length := by
        conv => lhs; rw [cut, List.length_append]
      rw [locate_cons, stream, leading, Nat.sub_self, Nat.zero_add, List.drop_left, Nat.add_zero,
        locate_pads padding leading_le, long, ← Nat.add_assoc]

end Places

section Beginnings

variable {pad : α → Bool}

/-- An item that is no padding lies in a placed content. -/
theorem exists_placed {segments : List (List α)} {i : Nat} {x : α}
    (item : segments.flatten[i]? = some x) (kept : pad x = false) (start : Nat) :
    ∃ content, (start + beginning segments i, content) ∈ placed pad start segments ∧
      beginning segments i ≤ i ∧ i < beginning segments i + content.length := by
  induction segments generalizing start i with
  | nil => simp at item
  | cons segment segments ih =>
    unfold beginning placed
    rw [List.flatten_cons] at item
    by_cases inside : i < segment.length
    · rw [List.getElem?_append_left inside] at item
      have deep : i < (segment.rdropWhile pad).length := by
        by_contra beyond
        rw [← List.rdropWhile_append_rtakeWhile (p := pad) (l := segment),
          List.getElem?_append_right (Nat.le_of_not_lt beyond)] at item
        have padding := List.mem_rtakeWhile_imp (List.mem_of_getElem? item)
        rw [kept] at padding
        cases padding
      have filled : segment.rdropWhile pad ≠ [] := List.ne_nil_of_length_pos (by omega)
      rw [if_pos inside, if_neg filled]
      exact ⟨_, List.mem_cons_self, Nat.zero_le _, by omega⟩
    · rw [List.getElem?_append_right (Nat.le_of_not_lt inside)] at item
      obtain ⟨content, member, low, high⟩ := ih item (start + segment.length)
      rw [if_neg inside]
      refine ⟨content, ?_, by omega, by omega⟩
      rw [← Nat.add_assoc]
      split
      · exact member
      · exact List.mem_cons_of_mem _ member

/-- A placed content lies where its segment begins. -/
theorem beginning_of_placed {segments : List (List α)} {start : Nat} {place : Nat × List α}
    (member : place ∈ placed pad start segments) :
    start ≤ place.1 ∧ ∀ i, place.1 ≤ start + i → start + i < place.1 + place.2.length →
      start + beginning segments i = place.1 := by
  induction segments generalizing start place with
  | nil => cases member
  | cons segment segments ih =>
    have short : (segment.rdropWhile pad).length ≤ segment.length :=
      (List.rdropWhile_prefix pad segment).length_le
    have later : ∀ {place}, place ∈ placed pad (start + segment.length) segments →
        start ≤ place.1 ∧ ∀ i, place.1 ≤ start + i → start + i < place.1 + place.2.length →
          start + beginning (segment :: segments) i = place.1 := by
      intro place member
      obtain ⟨after, begins⟩ := ih member
      refine ⟨by omega, fun i low high => ?_⟩
      unfold beginning
      rw [if_neg (by omega), ← begins (i - segment.length) (by omega) (by omega)]
      omega
    unfold placed at member
    split at member
    · exact later member
    · rcases List.mem_cons.mp member with rfl | member
      · refine ⟨Nat.le_refl _, fun i low high => ?_⟩
        unfold beginning
        rw [if_pos (by dsimp only at high; omega), Nat.add_zero]
      · exact later member

theorem placed_sorted (pad : α → Bool) (start : Nat) (segments : List (List α)) :
    (placed pad start segments).Pairwise (fun p q => p.1 < q.1) := by
  induction segments generalizing start with
  | nil => exact List.Pairwise.nil
  | cons segment segments ih =>
    unfold placed
    split
    · exact ih _
    · rename_i filled
      refine List.pairwise_cons.mpr ⟨fun place member => ?_, ih _⟩
      have long := List.length_pos_iff.mpr filled
      have short := (List.rdropWhile_prefix pad segment).length_le
      have after := (beginning_of_placed member).1
      dsimp only
      omega

/-- What a placed content is: a stretch of the stream that ends in an item that is no padding. -/
theorem placed_stretch {segments : List (List α)} {start : Nat} {place : Nat × List α}
    (member : place ∈ placed pad start segments) :
    ∃ k x before, place.1 = start + k ∧ place.2 = (segments.flatten.drop k).take place.2.length ∧
      place.2 = before ++ [x] ∧ pad x = false := by
  induction segments generalizing start with
  | nil => cases member
  | cons segment segments ih =>
    have later : place ∈ placed pad (start + segment.length) segments → ∃ k x before,
        place.1 = start + k ∧
          place.2 = ((segment :: segments).flatten.drop k).take place.2.length ∧
          place.2 = before ++ [x] ∧ pad x = false := by
      intro member
      obtain ⟨k, x, before, begins, stretch, ends⟩ := ih member
      refine ⟨segment.length + k, x, before, by omega, ?_, ends⟩
      rw [List.flatten_cons, ← List.drop_drop, List.drop_left]
      exact stretch
    unfold placed at member
    split at member
    · exact later member
    · rename_i filled
      rcases List.mem_cons.mp member with rfl | member
      · refine ⟨0, (segment.rdropWhile pad).getLast filled, (segment.rdropWhile pad).dropLast, rfl, ?_,
          (List.dropLast_append_getLast filled).symm, by
            simpa using List.rdropWhile_last_not pad segment filled⟩
        exact List.prefix_iff_eq_take.mp ((List.rdropWhile_prefix pad segment).trans
          (List.prefix_append segment segments.flatten))
      · exact later member

end Beginnings

section Agreement

variable {pad : α → Bool} {a b : List (List α)}

/-- What is not padding lies in segments of both cuts that begin in the same place. -/
def Agree (pad : α → Bool) (a b : List (List α)) : Prop :=
  ∀ i x, a.flatten[i]? = some x → pad x = false → beginning a i = beginning b i

theorem Agree.symm (same : a.flatten = b.flatten) (agree : Agree pad a b) : Agree pad b a :=
  fun i x item kept => (agree i x (same ▸ item) kept).symm

private theorem Agree.placed_le (same : a.flatten = b.flatten) (agree : Agree pad a b) {start : Nat}
    {content : List α} (member : (start, content) ∈ placed pad 0 a) :
    ∃ content', (start, content') ∈ placed pad 0 b ∧ content.length ≤ content'.length := by
  obtain ⟨k, x, before, begins, stretch, ends, kept⟩ := placed_stretch member
  have begins : start = k := by simpa using begins
  have ends : content = before ++ [x] := ends
  have long : content.length = before.length + 1 := by simp [ends]
  have item : a.flatten[start + before.length]? = some x := by
    have inside : content[before.length]? = some x := by simp [ends]
    have stretch : content = (a.flatten.drop k).take content.length := stretch
    rw [stretch, List.getElem?_take_of_lt (by omega), List.getElem?_drop] at inside
    rw [begins]
    exact inside
  have here : beginning a (start + before.length) = start := by
    have found := (beginning_of_placed member).2 (start + before.length)
    simpa using found (by simp) (by simp [long])
  obtain ⟨content', found, -, high⟩ := exists_placed (same ▸ item) kept 0
  rw [← agree _ _ item kept, here, Nat.zero_add] at found
  rw [← agree _ _ item kept, here] at high
  exact ⟨content', found, by omega⟩

private theorem Agree.placed_subset (same : a.flatten = b.flatten) (agree : Agree pad a b)
    {place : Nat × List α} (member : place ∈ placed pad 0 a) : place ∈ placed pad 0 b := by
  obtain ⟨start, content⟩ := place
  obtain ⟨content', found, long⟩ := agree.placed_le same member
  obtain ⟨content'', back, short⟩ := (agree.symm same).placed_le same.symm found
  have distinct : ((placed pad 0 a).map Prod.fst).Nodup :=
    List.pairwise_map.mpr ((placed_sorted pad 0 a).imp fun less => Nat.ne_of_lt less)
  have again : content'' = content :=
    congrArg Prod.snd (List.inj_on_of_nodup_map distinct back member rfl)
  obtain ⟨k, -, -, begins, stretch, -⟩ := placed_stretch member
  obtain ⟨k', -, -, begins', stretch', -⟩ := placed_stretch found
  have place : k' = k := by
    have one : start = k := by simpa using begins
    have other : start = k' := by simpa using begins'
    omega
  have length : content'.length = content.length := by
    rw [again] at short
    omega
  have equal : content' = content := by
    rw [show content = _ from stretch, show content' = _ from stretch', place, length, same]
  rw [← equal]
  exact found

/-- Two cuts of one stream have the same contents exactly when what is not padding lies in
segments that begin in the same place. -/
theorem contents_eq_iff (same : a.flatten = b.flatten) :
    contents pad a = contents pad b ↔ Agree pad a b := by
  constructor
  · intro equal i x item kept
    have places : placed pad 0 a = placed pad 0 b := by
      rw [← locate_contents, ← locate_contents, same, equal]
    obtain ⟨content, member, low, high⟩ := exists_placed item kept 0
    rw [places] at member
    have found := (beginning_of_placed member).2 i
    simp only [Nat.zero_add] at found
    exact (found low high).symm
  · intro agree
    have places : placed pad 0 a = placed pad 0 b :=
      List.Pairwise.eq_of_mem_iff (placed_sorted pad 0 a) (placed_sorted pad 0 b) fun place =>
        ⟨agree.placed_subset same, (agree.symm same).placed_subset same.symm⟩
    rw [← placed_map_snd pad 0 a, ← placed_map_snd pad 0 b, places]

end Agreement

section Gaps

variable {gap : α}

/-- Two words that differ at most by a gap after the last item that is not one. -/
inductive Trails (gap : α) : List α → List α → Prop
  | same (word : List α) : Trails gap word word
  | more (before : List α) {x : α} (item : x ≠ gap) : Trails gap (before ++ [x, gap]) (before ++ [x])
  | less (before : List α) {x : α} (item : x ≠ gap) : Trails gap (before ++ [x]) (before ++ [x, gap])

theorem Trails.symm {word word' : List α} (trails : Trails gap word word') :
    Trails gap word' word := by
  cases trails with
  | same word => exact .same word
  | more before item => exact .less before item
  | less before item => exact .more before item

/-- A word read one item late, after a gap, is made of gaps, and what follows is late as well. -/
private theorem late {word rest rest' : List α} (shifted : gap :: (word ++ rest) = word ++ rest') :
    (∀ x ∈ word, x = gap) ∧ rest' = gap :: rest := by
  induction word with
  | nil => exact ⟨fun _ member => absurd member List.not_mem_nil, shifted.symm⟩
  | cons x word ih =>
    obtain ⟨rfl, shifted⟩ := List.cons.inj shifted
    obtain ⟨all, after⟩ := ih shifted
    exact ⟨List.forall_mem_cons.mpr ⟨rfl, all⟩, after⟩

/-- A gap moved to the word before is never made up for. -/
private theorem Trails.not_late {words words' : List (List α)}
    (trails : List.Forall₂ (Trails gap) words words') : gap :: words.flatten ≠ words'.flatten := by
  induction trails with
  | nil => exact List.cons_ne_nil _ _
  | @cons word word' words words' one rest ih =>
    intro shifted
    rw [List.flatten_cons, List.flatten_cons] at shifted
    cases one with
    | same => exact ih (late shifted).2.symm
    | @more before x item =>
      have shifted : gap :: ((before ++ [x]) ++ gap :: words.flatten) =
          (before ++ [x]) ++ words'.flatten := by simpa using shifted
      exact item ((late shifted).1 x (by simp))
    | @less before x item =>
      have shifted : gap :: ((before ++ [x]) ++ words.flatten) =
          (before ++ [x]) ++ gap :: words'.flatten := by simpa using shifted
      exact item ((late shifted).1 x (by simp))

/-- Words that differ by gaps at their ends only and make up one stream are the same. -/
theorem Trails.eq_of_flatten {words words' : List (List α)}
    (trails : List.Forall₂ (Trails gap) words words') (same : words.flatten = words'.flatten) :
    words = words' := by
  induction trails with
  | nil => rfl
  | @cons word word' words words' one rest ih =>
    rw [List.flatten_cons, List.flatten_cons] at same
    cases one with
    | same => rw [ih (List.append_cancel_left same)]
    | @more before x item =>
      have shifted : before ++ [x] ++ (gap :: words.flatten) = before ++ [x] ++ words'.flatten := by
        simpa using same
      exact absurd (List.append_cancel_left shifted) (Trails.not_late rest)
    | @less before x item =>
      have shifted : before ++ [x] ++ words.flatten = before ++ [x] ++ (gap :: words'.flatten) := by
        simpa using same
      have back := List.Forall₂.flip (rest.imp fun _ _ trails => trails.symm)
      exact absurd (List.append_cancel_left shifted).symm (Trails.not_late back)

variable {pad : α → Bool} {a b : List (List α)}

/-- What two contents that differ by a gap are without the padding. -/
private theorem Trails.filter {word word' : List α} (trails : Trails gap word word')
    (kept : pad gap = false) (ends : ∃ before x, word = before ++ [x] ∧ pad x = false)
    (ends' : ∃ before x, word' = before ++ [x] ∧ pad x = false) :
    Trails gap (word.filter (fun x => !pad x)) (word'.filter (fun x => !pad x)) ∧
      (word.filter (fun x => !pad x) = word'.filter (fun x => !pad x) → word = word') := by
  cases trails with
  | same word => exact ⟨.same _, fun _ => rfl⟩
  | @more before x item =>
    obtain ⟨before', y, same, last⟩ := ends'
    obtain ⟨rfl, rfl⟩ := List.append_inj' same rfl |>.imp id List.singleton_inj.mp
    simp only [List.filter_append, List.filter_cons, kept, last, Bool.not_false, if_true,
      List.filter_nil]
    exact ⟨.more _ item, fun equal => by simp at equal⟩
  | @less before x item =>
    obtain ⟨before', y, same, last⟩ := ends
    obtain ⟨rfl, rfl⟩ := List.append_inj' same rfl |>.imp id List.singleton_inj.mp
    simp only [List.filter_append, List.filter_cons, kept, last, Bool.not_false, if_true,
      List.filter_nil]
    exact ⟨.less _ item, fun equal => by simp at equal⟩

private theorem Trails.filter_all {words words' : List (List α)} (kept : pad gap = false)
    (trails : List.Forall₂ (Trails gap) words words')
    (ends : ∀ word ∈ words, ∃ before x, word = before ++ [x] ∧ pad x = false)
    (ends' : ∀ word ∈ words', ∃ before x, word = before ++ [x] ∧ pad x = false) :
    List.Forall₂ (Trails gap) (words.map (List.filter (fun x => !pad x)))
        (words'.map (List.filter (fun x => !pad x))) ∧
      (words.map (List.filter (fun x => !pad x)) = words'.map (List.filter (fun x => !pad x)) →
        words = words') := by
  induction trails with
  | nil => exact ⟨.nil, fun _ => rfl⟩
  | cons one rest ih =>
    obtain ⟨end', ends⟩ := List.forall_mem_cons.mp ends
    obtain ⟨end'', ends'⟩ := List.forall_mem_cons.mp ends'
    obtain ⟨first, firstSame⟩ := one.filter kept end' end''
    obtain ⟨others, othersSame⟩ := ih ends ends'
    refine ⟨.cons first others, fun equal => ?_⟩
    obtain ⟨head, tail⟩ := List.cons.inj equal
    rw [firstSame head, othersSame tail]

/-- The contents of two cuts of one stream that differ by gaps at their ends only are the same. -/
theorem contents_eq_of_trails (kept : pad gap = false) (same : a.flatten = b.flatten)
    (trails : List.Forall₂ (Trails gap) (contents pad a) (contents pad b)) :
    contents pad a = contents pad b := by
  obtain ⟨projected, determined⟩ := Trails.filter_all kept trails
    (fun _ member => getLast_of_mem_contents member) (fun _ member => getLast_of_mem_contents member)
  apply determined
  apply Trails.eq_of_flatten projected
  rw [flatten_filter_contents, flatten_filter_contents, same]

end Gaps

end Segments
