import NodeFlow.Proofs.Json.Numbers
import NodeFlow.Json.Writer
/-!
# Layouts the reader takes back

A layout is `Separated` when what it puts between tokens is blank to the
reader (a comma or a colon followed by blanks, and indentation made of blanks)
and it keeps members in their order. It is `Readable` when it also writes text
unescaped. Under these choices reading gives back the value itself, up to the
form of its texts. The indented layouts and the one-line layout are readable;
the one-line ASCII layout is separated.

For a separated layout the brackets around non-empty items are the opening
bracket, blanks, the items separated by a comma and blanks, blanks, and the
closing bracket (`enclose_shape`); the reader skips each run of blanks in one
step (`skipBlanks_blanks_append`).
-/

namespace NodeFlow

namespace Json

open Reader

/-- Characters the reader skips between tokens. -/
def Blanks (b : List Char) : Prop := ∀ c ∈ b, isBlank c = true

/-- A layout whose separators and indentation are blank to the reader and that
keeps members in order. -/
structure Layout.Separated (l : Layout) : Prop where
  itemSep : ∃ b, l.itemSep.toList = ',' :: b ∧ Blanks b
  keySep : ∃ b, l.keySep.toList = ':' :: b ∧ Blanks b
  indent : ∀ step, l.indent = some step → Blanks step.toList
  unsorted : l.sortKeys = false

/-- A separated layout that also writes text as it is. -/
structure Layout.Readable (l : Layout) : Prop extends l.Separated where
  plain : l.asciiOnly = false

theorem blanks_replicate_space (n : Nat) : Blanks (List.replicate n ' ') := by
  intro c hc
  rw [(List.mem_replicate.1 hc).2]
  rfl

theorem Layout.indented_readable (n : Nat) : (Layout.indented n false).Readable where
  itemSep := ⟨[], show ",".toList = [','] from rfl, fun _ h => absurd h List.not_mem_nil⟩
  keySep := ⟨[' '], show ": ".toList = [':', ' '] from rfl, by simp [Blanks]; rfl⟩
  indent := by
    rintro step ⟨⟩
    rw [String.toList_ofList]
    exact blanks_replicate_space n
  unsorted := rfl
  plain := rfl

theorem Layout.inline_readable : Layout.inline.Readable where
  itemSep := ⟨[' '], rfl, by simp [Blanks]; rfl⟩
  keySep := ⟨[' '], rfl, by simp [Blanks]; rfl⟩
  indent := by rintro step ⟨⟩
  unsorted := rfl
  plain := rfl

/-- The one-line layout that escapes every character outside printable ASCII. -/
theorem Layout.inlineAscii_separated : Layout.inlineAscii.Separated where
  itemSep := ⟨[' '], rfl, by simp [Blanks]; rfl⟩
  keySep := ⟨[' '], rfl, by simp [Blanks]; rfl⟩
  indent := by rintro step ⟨⟩
  unsorted := rfl

theorem Blanks.append {b b' : List Char} (h : Blanks b) (h' : Blanks b') : Blanks (b ++ b') := by
  intro c hc
  rcases List.mem_append.1 hc with hc | hc
  · exact h c hc
  · exact h' c hc

theorem skipBlanks_blanks_append {b : List Char} (hb : Blanks b) (cs : List Char) (pos : Nat) :
    skipBlanks (b ++ cs) pos = skipBlanks cs (pos + b.length) := by
  induction b generalizing pos with
  | nil => rfl
  | cons c b ih =>
    rw [List.cons_append, skipBlanks, if_pos (hb c List.mem_cons_self),
      ih (fun c' h => hb c' (List.mem_cons_of_mem c h))]
    simp [Nat.add_assoc, Nat.add_comm 1]

theorem skipBlanks_of_not_blank {c : Char} (hc : isBlank c = false) (r : List Char) (pos : Nat) :
    skipBlanks (c :: r) pos = (c :: r, pos) := by
  rw [skipBlanks, if_neg (by simp [hc])]

/-- Blanks, then a character that ends a number, end a number. -/
theorem ends_blanks_append {b : List Char} (hb : Blanks b) {c : Char} {r : List Char}
    (hc : Ends (c :: r)) : Ends (b ++ c :: r) := by
  cases b with
  | nil => exact hc
  | cons d b =>
    have hd := hb d List.mem_cons_self
    simp only [isBlank, Bool.or_eq_true, beq_iff_eq] at hd
    refine ⟨?_, ?_, ?_, ?_⟩ <;> rcases hd with ((rfl | rfl) | rfl) | rfl <;> decide

theorem newline_blanks {l : Layout} (hl : l.Separated) {level : Nat} {s : String}
    (h : Writer.newline l level = some s) : Blanks s.toList := by
  unfold Writer.newline at h
  obtain ⟨step, hstep, rfl⟩ := Option.map_eq_some_iff.1 h
  have hs := hl.indent step hstep
  intro c hc
  simp only [String.toList_append, String.toList_join, List.mem_append, List.mem_flatMap,
    List.mem_replicate] at hc
  rcases hc with hc | ⟨t, ⟨-, rfl⟩, hc⟩
  · rw [show "\n".toList = ['\n'] from rfl, List.mem_singleton] at hc
    rw [hc]
    rfl
  · exact hs c hc

/-- **Items in brackets, as a readable layout writes them.** -/
theorem enclose_shape {l : Layout} (hl : l.Separated) (level : Nat) (o c : String)
    {parts : List String} (hp : parts ≠ []) :
    ∃ b₀ b₁ b₂, Blanks b₀ ∧ Blanks b₁ ∧ Blanks b₂ ∧
      (Writer.enclose l level o c parts).toList =
        o.toList ++ b₀ ++ List.intercalate (',' :: b₁) (parts.map String.toList) ++ b₂ ++ c.toList := by
  obtain ⟨bs, hsep, hbs⟩ := hl.itemSep
  unfold Writer.enclose
  split
  · contradiction
  · split
    · rename_i inner outer hin hout
      refine ⟨inner.toList, bs ++ inner.toList, outer.toList, newline_blanks hl hin,
        hbs.append (newline_blanks hl hin), newline_blanks hl hout, ?_⟩
      simp only [String.toList_append, String.toList_intercalate, hsep, List.cons_append]
    · refine ⟨[], bs, [], fun _ h => absurd h List.not_mem_nil, hbs,
        fun _ h => absurd h List.not_mem_nil, ?_⟩
      simp only [String.toList_append, String.toList_intercalate, hsep, List.append_nil]

end Json

end NodeFlow
