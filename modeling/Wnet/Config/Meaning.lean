import Wnet.Config.Assertions
import Wnet.Config.ReadBack

/-!
# The meaning of a file

A file means what its lines say: a key line under a header gives its key in that
section a value, and of several lines that give the same key the first counts.
`Load` accepts the files whose lines all have a meaning, and `GetString` then
finds what they say.
-/

namespace Wnet.Config

open Foundation

variable {name key : Bytes} {lines : List Bytes}

/-- The lines of a text without the blanks around them. -/
def trimmedLines (text : Bytes) : List Bytes := (Config.lines text).map (trim isBlank)

/-- The section that is open after some lines: the name in the last header among them. -/
def sectionOf (before : List Bytes) : Option Bytes :=
  ((before.filter fun line => IsHeader line).getLast?).map nameOf

/-- A line, with the lines before it, gives the key of the section a value. -/
def Gives (name key : Bytes) (before : List Bytes) (line : Bytes) : Prop :=
  IsKeyLine line ∧ sectionOf before = some name ∧ keyOf line = key

instance (name key : Bytes) (before : List Bytes) (line : Bytes) :
    Decidable (Gives name key before line) := inferInstanceAs (Decidable (_ ∧ _))

/-- A line as it comes out of the file, without blanks around it and without an empty value
right in front of a comment. -/
structure Legible (line : Bytes) : Prop where
  trimmed : Trimmed isBlank line
  short : line.length < 4096
  noHash : IsKeyLine line → ¬ HashAtOnce line

theorem Legible.ofLine_eq {line : Bytes} (hline : Legible line) :
    RowKind.ofLine line =
      if IsComment line then .ignored
      else if IsHeader line then .header (nameOf line)
      else if IsKeyLine line then .setting (keyOf line) (valueOf line)
      else .malformed :=
  Config.ofLine_eq hline.trimmed hline.short hline.noHash

theorem IsKeyLine.not_isHeader {line : Bytes} (hkey : IsKeyLine line) : ¬ IsHeader line :=
  fun hheader => hkey.2.1 hheader.1

theorem Legible.ofLine_header {line : Bytes} (hline : Legible line) (hheader : IsHeader line) :
    RowKind.ofLine line = .header (nameOf line) := by
  rw [hline.ofLine_eq, if_neg (not_isComment_of_bracket hheader.1), if_pos hheader]

theorem Legible.ofLine_setting {line : Bytes} (hline : Legible line) (hkey : IsKeyLine line) :
    RowKind.ofLine line = .setting (keyOf line) (valueOf line) := by
  rw [hline.ofLine_eq, if_neg hkey.1, if_neg hkey.not_isHeader, if_pos hkey]

/-- A line that is neither a header nor a key line is passed over or stops the loading. -/
theorem Legible.ofLine_other {line : Bytes} (hline : Legible line) (hheader : ¬ IsHeader line)
    (hkey : ¬ IsKeyLine line) :
    RowKind.ofLine line = .ignored ∨ RowKind.ofLine line = .malformed := by
  rw [hline.ofLine_eq, if_neg hheader, if_neg hkey]
  split
  · exact Or.inl rfl
  · exact Or.inr rfl

/-- Only a header changes the section. -/
theorem Legible.sectionAfter_eq {line : Bytes} (hline : Legible line) (hheader : ¬ IsHeader line)
    (current : Option Bytes) : sectionAfter current [RowKind.ofLine line] = current := by
  by_cases hkey : IsKeyLine line
  · rw [hline.ofLine_setting hkey]
    rfl
  · rcases hline.ofLine_other hheader hkey with hkind | hkind
    · rw [hkind]
      rfl
    · rw [hkind]
      rfl

theorem Legible.ne_setting {line : Bytes} (hline : Legible line) (hkey : ¬ IsKeyLine line)
    (other value : Bytes) : RowKind.ofLine line ≠ .setting other value := by
  by_cases hheader : IsHeader line
  · simp [hline.ofLine_header hheader]
  · rcases hline.ofLine_other hheader hkey with hkind | hkind
    · simp [hkind]
    · simp [hkind]

theorem Legible.ne_aborts {line : Bytes} (hline : Legible line) :
    RowKind.ofLine line ≠ .aborts := by
  rw [hline.ofLine_eq]
  split_ifs <;> simp

theorem Legible.ofLine_eq_malformed_iff {line : Bytes} (hline : Legible line) :
    RowKind.ofLine line = .malformed ↔ ¬ IsMeaningful line := by
  rw [hline.ofLine_eq]
  split_ifs with hcomment hheader hkey
  · have hmeaningful : IsMeaningful line := Or.inl hcomment
    simpa using hmeaningful
  · have hmeaningful : IsMeaningful line := Or.inr (Or.inl hheader)
    simpa using hmeaningful
  · have hmeaningful : IsMeaningful line := Or.inr (Or.inr hkey.2)
    simpa using hmeaningful
  · simp only [true_iff]
    rintro (hblank | hopens | hassigns)
    · exact hcomment hblank
    · exact hheader hopens
    · exact hkey ⟨hcomment, hassigns⟩

/-! ## Several lines -/

theorem sectionOf_concat (before : List Bytes) (line : Bytes) :
    sectionOf (before ++ [line]) = if IsHeader line then some (nameOf line)
      else sectionOf before := by
  rw [sectionOf, List.filter_append]
  split
  next hheader => simp [hheader]
  next hheader => simp [hheader, sectionOf]

/-- `pMap` points to the section of the last header. -/
theorem sectionAfter_lines (hlines : ∀ line ∈ lines, Legible line) :
    sectionAfter none (lines.map RowKind.ofLine) = sectionOf lines := by
  induction lines using List.reverseRecOn with
  | nil => rfl
  | append_singleton before line ih =>
      have hline : Legible line := hlines line (by simp)
      have hbefore := ih fun other hother => hlines other (by simp [hother])
      rw [List.map_append, sectionAfter_append, hbefore, sectionOf_concat, List.map_singleton]
      split
      next hheader =>
        rw [hline.ofLine_header hheader]
        rfl
      next hheader => exact hline.sectionAfter_eq hheader _

/-- Lines of which no one gives the key a value. -/
theorem settingIn_lines_eq_none (hlines : ∀ line ∈ lines, Legible line)
    (hnone : ∀ before line after, lines = before ++ line :: after → ¬ Gives name key before line) :
    settingIn name key none (lines.map RowKind.ofLine) = none := by
  induction lines using List.reverseRecOn with
  | nil => rfl
  | append_singleton before line ih =>
      have hbefore : ∀ other ∈ before, Legible other := fun other hother =>
        hlines other (by simp [hother])
      have hline : Legible line := hlines line (by simp)
      have hearlier := ih hbefore fun first other second hsplit =>
        hnone first other (second ++ [line]) (by rw [hsplit]; simp)
      have hnot := hnone before line [] rfl
      rw [List.map_append, settingIn_append, hearlier, Option.none_or, sectionAfter_lines hbefore,
        List.map_singleton]
      by_cases hkey : IsKeyLine line
      · rw [hline.ofLine_setting hkey, settingIn, if_neg fun hgives => hnot ⟨hkey, hgives⟩]
        rfl
      · apply settingIn_eq_none
        intro value hmem
        exact hline.ne_setting hkey key value (List.mem_singleton.mp hmem).symm

/-- The first line that gives the key a value counts. -/
theorem settingIn_lines_eq_some {before after : List Bytes} {line : Bytes}
    (hlines : ∀ other ∈ before ++ line :: after, Legible other)
    (hgives : Gives name key before line)
    (hfirst : ∀ earlier other later, before = earlier ++ other :: later →
      ¬ Gives name key earlier other) :
    settingIn name key none ((before ++ line :: after).map RowKind.ofLine) =
      some (valueOf line) := by
  have hbefore : ∀ other ∈ before, Legible other := fun other hother =>
    hlines other (by simp [hother])
  have hline : Legible line := hlines line (by simp)
  obtain ⟨hkey, hsection, hname⟩ := hgives
  rw [List.map_append, settingIn_append, settingIn_lines_eq_none hbefore hfirst, Option.none_or,
    sectionAfter_lines hbefore, List.map_cons, hline.ofLine_setting hkey, settingIn,
    if_pos ⟨hsection, hname⟩]

/-- Of the places where something holds one is the first. -/
theorem exists_first_place {α : Type*} {items : List α} {holds : List α → α → Prop}
    {before after : List α} {item : α} (hsplit : items = before ++ item :: after)
    (hitem : holds before item) :
    ∃ before item after, items = before ++ item :: after ∧ holds before item ∧
      ∀ earlier other later, before = earlier ++ other :: later → ¬ holds earlier other := by
  induction hlength : before.length using Nat.strongRecOn generalizing before item after with
  | ind length ih =>
      by_cases hfirst : ∃ earlier other later, before = earlier ++ other :: later ∧
          holds earlier other
      · obtain ⟨earlier, other, later, rfl, hother⟩ := hfirst
        have hlt : earlier.length < length := by
          rw [← hlength, List.length_append, List.length_cons]
          omega
        have hearlier : items = earlier ++ other :: (later ++ item :: after) := by
          rw [hsplit, List.append_assoc, List.cons_append]
        exact ih earlier.length hlt hearlier hother rfl
      · refine ⟨before, item, after, hsplit, hitem, ?_⟩
        intro earlier other later hearlier hholds
        exact hfirst ⟨earlier, other, later, hearlier, hholds⟩

/-- If no assertion is tripped, only a malformed row stops the loading. -/
theorem accepted_iff_of_guarded {current : Option Bytes} {kinds : List RowKind}
    (hguarded : Guarded current kinds) : Accepted current kinds ↔ .malformed ∉ kinds := by
  induction kinds generalizing current with
  | nil => simp [Accepted]
  | cons kind rest ih =>
      cases kind with
      | header opened => simpa [Accepted] using ih hguarded
      | setting other value => simpa [Accepted, hguarded.1] using ih hguarded.2
      | ignored => simpa [Accepted] using ih hguarded
      | malformed => simp [Accepted]
      | aborts => exact hguarded.elim

theorem guarded_lines (hlines : ∀ line ∈ lines, Legible line)
    (hsections : ∀ before line after, lines = before ++ line :: after → IsKeyLine line →
      sectionOf before ≠ none) : Guarded none (lines.map RowKind.ofLine) := by
  rw [guarded_iff, forall_place_map]
  rintro before line after rfl -
  have hline : Legible line := hlines line (by simp)
  rw [sectionAfter_lines fun other hother => hlines other (by simp [hother])]
  refine ⟨hline.ne_aborts, ?_⟩
  rintro ⟨other, value, hsetting⟩
  apply hsections before line after rfl
  by_contra hkey
  exact hline.ne_setting hkey other value hsetting

/-! ## A file -/

/-- What is known of the lines of a text. -/
theorem IniText.trimmedLines_eq {text : Bytes} (htext : IniText text) :
    ∃ rows, text = joinLines rows ∧ (∀ row ∈ rows, IsRow row ∧ 0 ∉ row) ∧
      trimmedLines text = rows.map (trim isBlank) := by
  obtain ⟨rows, rfl, hrows⟩ := htext.exists_rows
  refine ⟨rows, rfl, hrows, ?_⟩
  rw [trimmedLines, lines_joinLines fun row hrow => (hrows row hrow).1.1, List.map_map]
  apply List.map_congr_left
  intro row _
  apply trim_append
  intro char hchar
  rw [List.mem_singleton.mp hchar]
  rfl

theorem legible_trimmedLines {text : Bytes} (htext : IniText text)
    (hhash : ∀ line ∈ trimmedLines text, IsKeyLine line → ¬ HashAtOnce line) :
    ∀ line ∈ trimmedLines text, Legible line := by
  intro line hline
  have hnoHash := hhash line hline
  obtain ⟨rows, -, hrows, htrimmed⟩ := htext.trimmedLines_eq
  rw [htrimmed] at hline
  obtain ⟨row, hrow, rfl⟩ := List.mem_map.mp hline
  have hlength : row.length < 4095 := (hrows row hrow).1.2
  exact ⟨trimmed_trim row, Nat.lt_of_le_of_lt (trim_isInfix row).length_le (by omega), hnoHash⟩

/-- `Load` on a new configuration goes by the lines of the text. -/
theorem load_lines {files : Files} {filename text : Bytes} (hfile : files filename = some text)
    (htext : IniText text) :
    CConfig.new.load files filename =
      (loadKinds ⟨.empty, none⟩ ((trimmedLines text).map RowKind.ofLine)).map
        fun (code, map) => (code, ⟨filename, map⟩) := by
  obtain ⟨rows, rfl, hrows, htrimmed⟩ := htext.trimmedLines_eq
  rw [CConfig.load, hfile, htrimmed, List.map_map]
  simp only [CConfig.new, loadRows_joinLines _ hrows]
  rfl

theorem success_iff_accepted {state : LoadState} {kinds : List RowKind} {code : ReturnCode}
    {map : ConfigMap} (hload : loadKinds state kinds = some (code, map)) :
    code = .success ↔ Accepted state.pMap kinds := by
  constructor
  · rintro rfl
    exact accepted_of_loadKinds hload
  · intro haccepted
    obtain ⟨other, hother, -⟩ := loadKinds_of_accepted haccepted
    rw [hload] at hother
    exact (Prod.mk.inj (Option.some.inj hother)).1

theorem valueIn_of_success {kinds : List RowKind} {map : ConfigMap}
    (hload : loadKinds ⟨.empty, none⟩ kinds = some (.success, map)) (name key : Bytes) :
    valueIn map name key = settingIn name key none kinds := by
  obtain ⟨other, hother, hvalue⟩ := loadKinds_of_accepted (accepted_of_loadKinds hload)
  rw [hload] at hother
  obtain ⟨-, rfl⟩ := Prod.mk.inj (Option.some.inj hother)
  rw [hvalue]
  rfl

theorem malformed_not_mem_lines (hlines : ∀ line ∈ lines, Legible line) :
    .malformed ∉ lines.map RowKind.ofLine ↔ ∀ line ∈ lines, IsMeaningful line := by
  simp only [List.mem_map, not_exists, not_and]
  refine forall₂_congr fun line hline => ?_
  rw [(hlines line hline).ofLine_eq_malformed_iff, not_not]

/-- `Load` gives a file the meaning of its lines. -/
theorem load_meaning {files : Files} {filename text : Bytes} (hfile : files filename = some text)
    (htext : IniText text)
    (hsections : ∀ before line after, trimmedLines text = before ++ line :: after →
      IsKeyLine line → sectionOf before ≠ none)
    (hhash : ∀ line ∈ trimmedLines text, IsKeyLine line → ¬ HashAtOnce line) :
    ∃ code config, CConfig.new.load files filename = some (code, config) ∧
      (code = .success ↔ ∀ line ∈ trimmedLines text, IsMeaningful line) ∧
      (code = .success → ∀ name key default,
        ((config.getString name key default).1 = .success ↔
          ∃ before line after, trimmedLines text = before ++ line :: after ∧
            Gives name key before line) ∧
        (∀ before line after, trimmedLines text = before ++ line :: after →
          Gives name key before line →
          (∀ earlier other later, before = earlier ++ other :: later →
            ¬ Gives name key earlier other) →
          config.getString name key default = (.success, valueOf line)) ∧
        ((∀ before line after, trimmedLines text = before ++ line :: after →
          ¬ Gives name key before line) →
          config.getString name key default = (.fail, default))) := by
  have hlines := legible_trimmedLines htext hhash
  -- No assertion fails, so `Load` returns; the rest reads off what it returns.
  have hguarded := guarded_lines hlines hsections
  obtain ⟨⟨code, map⟩, hkinds⟩ := Option.isSome_iff_exists.mp
    ((loadKinds_isSome_iff ⟨.empty, none⟩ _).mpr hguarded)
  refine ⟨code, ⟨filename, map⟩, by rw [load_lines hfile htext, hkinds]; rfl, ?_, ?_⟩
  · rw [success_iff_accepted hkinds, accepted_iff_of_guarded hguarded,
      malformed_not_mem_lines hlines]
  · rintro rfl name key default
    have hvalue := valueIn_of_success hkinds name key
    have hfound : ∀ before line after, trimmedLines text = before ++ line :: after →
        Gives name key before line →
        (∀ earlier other later, before = earlier ++ other :: later →
          ¬ Gives name key earlier other) →
        CConfig.getString ⟨filename, map⟩ name key default = (.success, valueOf line) := by
      intro before line after hsplit hgives hfirst
      rw [hsplit] at hlines hvalue
      rw [getString_eq, hvalue, settingIn_lines_eq_some hlines hgives hfirst]
    have hmissing : (∀ before line after, trimmedLines text = before ++ line :: after →
        ¬ Gives name key before line) →
        CConfig.getString ⟨filename, map⟩ name key default = (.fail, default) := by
      intro hnone
      rw [getString_eq, hvalue, settingIn_lines_eq_none hlines hnone]
    refine ⟨⟨?_, ?_⟩, hfound, hmissing⟩
    · intro hsuccess
      by_contra hnone
      rw [hmissing fun before line after hsplit hgives =>
        hnone ⟨before, line, after, hsplit, hgives⟩] at hsuccess
      cases hsuccess
    · rintro ⟨before, line, after, hsplit, hgives⟩
      -- Of several lines for one key, `insert` keeps the first.
      obtain ⟨before, line, after, hsplit, hgives, hfirst⟩ := exists_first_place hsplit hgives
      rw [hfound before line after hsplit hgives hfirst]

/-- The first of two values counts, and a section may be opened twice. -/
theorem load_meaning_repeated :
    let text := ascii "; two\n[s]\nkey = 1 # note\n[t]\n[ s ]\n key = 2\n"
    ∃ config, CConfig.new.load (fun _ => some text) (ascii "f") = some (.success, config) ∧
      config.getString (ascii "s") (ascii "key") [] = (.success, ascii "1") ∧
      config.getString (ascii "t") (ascii "key") [] = (.fail, []) := by
  intro text
  have hlines : trimmedLines text = [ascii "; two", ascii "[s]"] ++ ascii "key = 1 # note" ::
      [ascii "[t]", ascii "[ s ]", ascii "key = 2"] := by decide
  have hsections : ∀ before line after, trimmedLines text = before ++ line :: after →
      IsKeyLine line → sectionOf before ≠ none := by
    rw [hlines, List.cons_append, List.cons_append, List.nil_append]
    repeat rw [forall_place_cons]
    exact ⟨by decide, by decide, by decide, by decide, by decide, by decide, by simp⟩
  obtain ⟨code, config, hload, hcode, hfound⟩ := @load_meaning (fun _ => some text) (ascii "f")
    text rfl ⟨by decide, by decide, by decide⟩ hsections (by rw [hlines]; decide)
  obtain rfl : code = .success := hcode.mpr (by rw [hlines]; decide)
  refine ⟨config, hload, ?_, ?_⟩
  · apply (hfound rfl (ascii "s") (ascii "key") []).2.1 _ _ _ hlines (by decide)
    rw [forall_place_cons, forall_place_cons]
    exact ⟨by decide, by decide, by simp⟩
  · apply (hfound rfl (ascii "t") (ascii "key") []).2.2
    rw [hlines, List.cons_append, List.cons_append, List.nil_append]
    repeat rw [forall_place_cons]
    exact ⟨by decide, by decide, by decide, by decide, by decide, by decide, by simp⟩

end Wnet.Config
