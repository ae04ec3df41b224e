import Interlock.Endpoints
import Interlock.Proofs.Text.Split
import Interlock.Proofs.Url.Percent
import Mathlib.Data.List.DropRight

/-!
# A path is read back from its text

`readPath` returns segments that are `Proper`: encoded, without a slash, and not one that means a
place (`proper_of_readPath`). It reads the `pathChars` of such segments as the segments
(`readPath_pathChars`). To take the slashes off the end of a path is to take off its empty segments
(`rdropWhile_pathChars`).
-/

namespace Interlock.Url

open Text

/-! ## Schemes of the web -/

/-- The schemes that the settings allow. -/
def IsWeb (scheme : String) : Prop := scheme = "http" ∨ scheme = "https"

variable {scheme : String}

theorem IsWeb.isSpecial (h : IsWeb scheme) : isSpecial scheme = true := by
  rcases h with rfl | rfl <;> decide

theorem IsWeb.ne_file (h : IsWeb scheme) : scheme ≠ "file" := by
  rcases h with rfl | rfl <;> decide

/-! ## Segments -/

/-- A segment as it stands in a path: encoded, without a slash of either kind, and not one that
means this place or the place above. -/
structure Proper (s : String) : Prop where
  encoded : ∀ c ∈ s.toList, inPathSet c = false
  whole : ∀ c ∈ s.toList, isSlash true c = false
  notSingle : isSingleDot s = false
  notDouble : isDoubleDot s = false

instance (s : String) : Decidable (Proper s) :=
  decidable_of_iff ((∀ c ∈ s.toList, inPathSet c = false) ∧
      (∀ c ∈ s.toList, isSlash true c = false) ∧
      isSingleDot s = false ∧ isDoubleDot s = false)
    ⟨fun h => ⟨h.1, h.2.1, h.2.2.1, h.2.2.2⟩, fun h => ⟨h.1, h.2, h.3, h.4⟩⟩

theorem proper_empty : Proper "" := by decide

variable {parts : List String} {s : String}

/-- `pushSegment` keeps `Proper`: a segment that means a place leaves at most an empty one. -/
theorem forall_pushSegment (hweb : IsWeb scheme) (hparts : ∀ p ∈ parts, Proper p)
    (hencoded : ∀ c ∈ s.toList, inPathSet c = false)
    (hwhole : ∀ c ∈ s.toList, isSlash true c = false) (last : Bool) :
    ∀ p ∈ pushSegment scheme parts s last, Proper p := by
  have hempty : ∀ p ∈ (if last then [""] else []), Proper p := by
    intro p hp
    split at hp
    · rw [List.mem_singleton.mp hp]
      exact proper_empty
    · cases hp
  have hshorten : ∀ p ∈ shorten scheme parts, Proper p := by
    intro p hp
    unfold shorten at hp
    split at hp
    · split at hp
      · exact hparts p hp
      · cases hp
    · exact hparts p (List.dropLast_subset parts hp)
  unfold pushSegment
  by_cases hdouble : isDoubleDot s = true
  · rw [if_pos hdouble]
    exact List.forall_mem_append.mpr ⟨hshorten, hempty⟩
  rw [if_neg hdouble]
  by_cases hsingle : isSingleDot s = true
  · rw [if_pos hsingle]
    exact List.forall_mem_append.mpr ⟨hparts, hempty⟩
  rw [if_neg hsingle, if_neg (fun h => hweb.ne_file h.1)]
  refine List.forall_mem_append.mpr ⟨hparts, List.forall_mem_singleton.mpr ?_⟩
  exact ⟨hencoded, hwhole, eq_false_of_ne_true hsingle, eq_false_of_ne_true hdouble⟩

theorem pushSegment_ne_nil : pushSegment scheme parts s true ≠ [] := by
  unfold pushSegment
  split
  · simp
  · split
    · simp
    · split <;> simp

/-- `pushSegments` of encoded segments are `Proper`. -/
theorem forall_pushSegments (hweb : IsWeb scheme) (raw : List String)
    (hencoded : ∀ s ∈ raw, ∀ c ∈ s.toList, inPathSet c = false)
    (hwhole : ∀ s ∈ raw, ∀ c ∈ s.toList, isSlash true c = false) :
    ∀ {parts : List String}, (∀ p ∈ parts, Proper p) →
      ∀ p ∈ pushSegments scheme parts raw, Proper p := by
  induction raw with
  | nil =>
    intro parts hparts
    rw [pushSegments]
    exact hparts
  | cons s raw ih =>
    intro parts hparts
    obtain ⟨hs, hraw⟩ := List.forall_mem_cons.mp hencoded
    obtain ⟨hs', hraw'⟩ := List.forall_mem_cons.mp hwhole
    cases raw with
    | nil =>
      rw [pushSegments]
      exact forall_pushSegment hweb hparts hs hs' true
    | cons t raw =>
      rw [pushSegments]
      · exact ih hraw hraw' (forall_pushSegment hweb hparts hs hs' false)
      · exact List.cons_ne_nil t raw

theorem pushSegments_ne_nil (raw : List String) (hne : raw ≠ []) :
    ∀ {parts : List String}, pushSegments scheme parts raw ≠ [] := by
  induction raw with
  | nil => exact absurd rfl hne
  | cons s raw ih =>
    intro parts
    cases raw with
    | nil =>
      rw [pushSegments]
      exact pushSegment_ne_nil
    | cons t raw =>
      rw [pushSegments]
      · exact ih (List.cons_ne_nil t raw)
      · exact List.cons_ne_nil t raw

/-- `pushSegments` puts `Proper` segments behind others as they are. -/
theorem pushSegments_proper (hweb : IsWeb scheme) (raw : List String) (h : ∀ s ∈ raw, Proper s) :
    ∀ {parts : List String}, pushSegments scheme parts raw = parts ++ raw := by
  have hpush : ∀ {parts : List String} {s : String} {last : Bool}, Proper s →
      pushSegment scheme parts s last = parts ++ [s] := by
    intro parts s last hs
    unfold pushSegment
    rw [if_neg (by simp [hs.notDouble]), if_neg (by simp [hs.notSingle]),
      if_neg (fun hfile => hweb.ne_file hfile.1)]
  induction raw with
  | nil =>
    intro parts
    rw [pushSegments, List.append_nil]
  | cons s raw ih =>
    intro parts
    obtain ⟨hs, hraw⟩ := List.forall_mem_cons.mp h
    cases raw with
    | nil => rw [pushSegments, hpush hs]
    | cons t raw =>
      rw [pushSegments, hpush hs, ih hraw, List.append_assoc]
      · rfl
      · exact List.cons_ne_nil t raw

/-! ## Cutting a path -/

/-- `readSegments` returns `Proper` segments, at least one. -/
theorem proper_of_readSegments (hweb : IsWeb scheme) (cs : List Char) :
    readSegments scheme cs ≠ [] ∧ ∀ p ∈ readSegments scheme cs, Proper p := by
  have hbytes : ∀ c ∈ byteChars, inPathSet c = false ∧ isSlash true c = false := by decide
  unfold readSegments
  dsimp only
  rw [if_neg hweb.ne_file, hweb.isSpecial]
  constructor
  · apply pushSegments_ne_nil
    exact mt List.map_eq_nil_iff.mp (List.splitOnP_ne_nil _ cs)
  · apply forall_pushSegments hweb
    · intro s hs c hc
      obtain ⟨part, -, rfl⟩ := List.mem_map.mp hs
      rw [String.toList_ofList] at hc
      exact percentEncode_clean (fun c hc => (hbytes c hc).1) c hc
    · intro s hs c hc
      obtain ⟨part, hpart, rfl⟩ := List.mem_map.mp hs
      rw [String.toList_ofList] at hc
      rcases mem_percentEncode hc with ⟨hmem, -⟩ | hbyte
      · exact (forall_of_mem_splitOnP hpart c hmem).2
      · exact (hbytes c hbyte).2
    · exact List.forall_mem_nil _

/-- `readPath` returns `Proper` segments, at least one. -/
theorem proper_of_readPath (hweb : IsWeb scheme) (cs : List Char) : ∃ parts,
    readPath scheme cs = .segments parts ∧ parts ≠ [] ∧ ∀ p ∈ parts, Proper p := by
  unfold readPath
  cases cs with
  | nil =>
    refine ⟨[""], ?_, List.cons_ne_nil _ _, List.forall_mem_singleton.mpr proper_empty⟩
    rw [hweb.isSpecial]
    rfl
  | cons c rest => exact ⟨_, rfl, proper_of_readSegments hweb _⟩

/-! ## The text of a path -/

/-- The characters of segments, each behind a slash. -/
def pathChars (parts : List String) : List Char := parts.flatMap fun s => '/' :: s.toList

/-- The text of a path with segments is `pathChars`. -/
theorem toList_pathText (parts : List String) :
    (Path.segments parts).text.toList = pathChars parts := by
  have hfold : ∀ (parts : List String) (acc : String),
      (parts.foldl (fun acc s => acc ++ "/" ++ s) acc).toList = acc.toList ++ pathChars parts := by
    intro parts
    induction parts with
    | nil =>
      intro acc
      rw [List.foldl_nil]
      exact (List.append_nil _).symm
    | cons s parts ih =>
      intro acc
      rw [List.foldl_cons, ih, String.toList_append, String.toList_append, List.append_assoc,
        List.append_assoc]
      rfl
  exact hfold parts ""

theorem pathChars_append (parts parts' : List String) :
    pathChars (parts ++ parts') = pathChars parts ++ pathChars parts' :=
  List.flatMap_append

/-- `pathChars` cut at its slashes are the segments. -/
theorem splitOnP_pathChars (parts : List String) (hparts : ∀ p ∈ parts, Proper p) :
    ∀ {s : String}, Proper s →
      (s.toList ++ pathChars parts).splitOnP (isSlash true) = (s :: parts).map String.toList := by
  induction parts with
  | nil =>
    intro s hs
    unfold pathChars
    rw [List.flatMap_nil, List.append_nil, List.splitOnP_eq_singleton hs.whole]
    rfl
  | cons t parts ih =>
    intro s hs
    obtain ⟨ht, hparts⟩ := List.forall_mem_cons.mp hparts
    have hcons : pathChars (t :: parts) = '/' :: (t.toList ++ pathChars parts) := by
      unfold pathChars
      rw [List.flatMap_cons, List.cons_append]
    rw [hcons, List.splitOnP_append_cons_of_forall_mem hs.whole '/' rfl, ih hparts ht]
    rfl

/-- `readPath` of `pathChars parts` is `parts`, if they are `Proper`. -/
theorem readPath_pathChars (hweb : IsWeb scheme) (hne : parts ≠ []) (h : ∀ p ∈ parts, Proper p) :
    readPath scheme (pathChars parts) = .segments parts := by
  obtain ⟨s, parts, rfl⟩ := List.exists_cons_of_ne_nil hne
  obtain ⟨hs, hparts⟩ := List.forall_mem_cons.mp h
  have hraw : ((s.toList ++ pathChars parts).splitOnP (isSlash true)).map
      (fun s => String.ofList (percentEncode inPathSet s)) = s :: parts := by
    rw [splitOnP_pathChars parts hparts hs, List.map_map]
    nth_rewrite 2 [← List.map_id (s :: parts)]
    apply List.map_congr_left
    intro t ht
    show String.ofList (percentEncode inPathSet t.toList) = t
    rw [percentEncode_of_forall (h t ht).encoded, String.ofList_toList]
  have hchars : pathChars (s :: parts) = '/' :: (s.toList ++ pathChars parts) := by
    unfold pathChars
    rw [List.flatMap_cons, List.cons_append]
  rw [hchars]
  unfold readPath readSegments
  dsimp only
  rw [hweb.isSpecial, if_pos (show isSlash true '/' = true from rfl), hraw, if_neg hweb.ne_file,
    pushSegments_proper hweb _ h, List.nil_append]

/-! ## The end of a path -/

/-- Without slashes at its end, `pathChars` has no empty segments at its end. -/
theorem rdropWhile_pathChars {front : List Char} (hfront : front.getLast? ≠ some '/')
    (parts : List String) (h : ∀ p ∈ parts, Proper p) :
    (front ++ pathChars parts).rdropWhile (· == '/') =
      front ++ pathChars (parts.rdropWhile (· == "")) := by
  have hstays : ∀ cs : List Char, cs.getLast? ≠ some '/' → cs.rdropWhile (· == '/') = cs := by
    intro cs hlast
    rw [List.rdropWhile_eq_self_iff]
    intro hne hslash
    apply hlast
    rw [List.getLast?_eq_some_getLast hne, beq_iff_eq.mp hslash]
  induction parts using List.reverseRecOn with
  | nil =>
    rw [List.rdropWhile_nil]
    show (front ++ []).rdropWhile _ = front ++ []
    rw [List.append_nil, hstays front hfront]
  | append_singleton parts s ih =>
    obtain ⟨hparts, hs⟩ := List.forall_mem_append.mp h
    have hchars : pathChars [s] = '/' :: s.toList := by
      unfold pathChars
      rw [List.flatMap_cons, List.flatMap_nil, List.append_nil]
    rw [List.rdropWhile_concat, pathChars_append, hchars]
    by_cases hempty : s = ""
    · -- the slash in front of an empty segment goes, too
      subst hempty
      rw [if_pos (beq_self_eq_true _), ← ih hparts, ← List.append_assoc]
      exact List.rdropWhile_concat_pos (· == '/') (front ++ pathChars parts) '/' rfl
    · have hne : s.toList ≠ [] := by
        intro hnil
        exact hempty (String.toList_injective hnil)
      rw [if_neg (by simpa using hempty), pathChars_append, hchars]
      apply hstays
      -- the last character of the segment is no slash
      rw [← List.append_assoc, List.getLast?_append_of_ne_nil _ (List.cons_ne_nil _ _)]
      intro hlast
      have hmem : '/' ∈ s.toList := by
        obtain ⟨c, cs, heq⟩ := List.exists_cons_of_ne_nil hne
        rw [heq, List.getLast?_cons_cons, ← heq] at hlast
        exact List.mem_of_getLast? hlast
      exact absurd ((hs s List.mem_cons_self).whole '/' hmem) (by decide)

end Interlock.Url
