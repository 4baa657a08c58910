/-
# Other spacing, the same tokens

What stands between two tokens can be replaced. Take the tokens of a source without their places
and write their texts one after the other, with a separator between each two: a blank, and after it
more blanks and comments as one likes, each comment with the line end that ends it. The new source
has the same tokens in the same order, the invalid ones included.

A separator begins with a blank, and a blank can follow any token (`Lexeme.CanPrecede`) except a
string that is not closed. That is the last token wherever it stands, so no separator follows it.
The blank comes first for the sake of the slash, which a comment right after it would take along.

Key definitions: `Spacing`, `Separator`, `Respaced`.
Key theorems: `symbols_separator`, `symbols_respaced`, `stream_respaced`.
-/
import StackScript.Proofs.LongestMatch

namespace StackScript

/-- Blanks, and comments with the line ends that end them. -/
inductive Spacing : List Char → Prop
  | nil : Spacing []
  | blank {c gap} : isBlank c = true → Spacing gap → Spacing (c :: gap)
  | comment {body gap} : '\n' ∉ body → Spacing gap →
      Spacing ('/' :: '/' :: (body ++ '\n' :: gap))

/-- What can be put between two tokens: a blank, and more spacing after it. -/
inductive Separator : List Char → Prop
  | mk {c gap} : isBlank c = true → Spacing gap → Separator (c :: gap)

/-- The text is the given texts one after the other, with a separator between each two. -/
inductive Respaced : List (List Char) → List Char → Prop
  | nil : Respaced [] []
  | last {text} : Respaced [text] text
  | cons {text sep next texts rest} : Separator sep → Respaced (next :: texts) rest →
      Respaced (text :: next :: texts) (text ++ (sep ++ rest))

/-- Spacing is trivia before any text. -/
theorem Spacing.trivia {gap : List Char} (h : Spacing gap) (rest : List Char) :
    Trivia gap rest := by
  induction h with
  | nil => exact .nil
  | blank hc _ ih => exact .blank hc ih
  | comment hbody _ ih => exact .comment hbody ih

/-- Trivia are passed over. -/
theorem symbols_trivia {gap rest : List Char} (h : Trivia gap rest) :
    symbols (gap ++ rest) = symbols rest := by
  rw [symbols_eq (gap ++ rest), symbols_eq rest, splitTrivia_of_trivia h]

/-- A token before a separator is the same token, unless it may be a string that is not closed. -/
theorem symbols_separator {c : Char} {cs sep : List Char}
    (hs : splitTrivia (c :: cs) = ([], c :: cs)) (hrest : (lexeme c cs).rest ≠ [])
    (hsep : Separator sep) (more : List Char) :
    symbols ((lexeme c cs).text ++ (sep ++ more)) =
      ⟨(lexeme c cs).kind, (lexeme c cs).text⟩ :: symbols more := by
  obtain ⟨hblank, hgap⟩ := hsep
  rw [List.cons_append, symbols_again hs (.of_blank hblank _ (.inr hrest)), symbols_blank hblank,
    symbols_trivia (hgap.trivia more)]

/-- The symbols of a text, written with other spacing, are read back. -/
theorem symbols_respaced {source target : List Char}
    (h : Respaced ((symbols source).map Symbol.text) target) : symbols target = symbols source := by
  cases hcut : (splitTrivia source).2 with
  | nil =>
    have hsymbols : symbols source = [] := by rw [symbols_eq, hcut]
    rw [hsymbols] at h ⊢
    cases h with
    | nil => exact symbols_nil
  | cons c ds =>
    have hsymbols : symbols source =
        ⟨(lexeme c ds).kind, (lexeme c ds).text⟩ :: symbols (lexeme c ds).rest := by
      rw [symbols_eq, hcut]
    have htrivia : splitTrivia (c :: ds) = ([], c :: ds) := hcut ▸ splitTrivia_rest source
    have hnext : next? 0 source = some (⟨(lexeme c ds).kind, (lexeme c ds).text,
        0 + width (splitTrivia source).1⟩, (lexeme c ds).rest) := by rw [next?_eq, hcut]
    have hshorter := length_rest_lt hnext
    rw [hsymbols] at h ⊢
    rw [List.map_cons] at h
    generalize htexts : (symbols (lexeme c ds).rest).map Symbol.text = texts at h
    cases h with
    | last => rw [symbols_text htrivia, List.map_eq_nil_iff.mp htexts]
    | cons hsep hmore =>
      -- another token follows, so this one is no string without an end
      have hrest : (lexeme c ds).rest ≠ [] := by
        intro hnil
        rw [hnil, symbols_nil] at htexts
        cases htexts
      rw [symbols_separator htrivia hrest hsep, symbols_respaced (htexts ▸ hmore)]
termination_by source.length

/-- A source that is made of the texts of the tokens of another, with separators between them, has
the same tokens but for their places. -/
theorem stream_respaced {source target : List Char} {ts : List Token}
    (hts : Stream source 0 ts) (h : Respaced (ts.map Token.text) target) :
    ∃ us, Stream target 0 us ∧ us.map Token.symbol = ts.map Token.symbol := by
  obtain rfl := stream_start_iff.mp hts
  have htexts : (symbols source).map Symbol.text = (tokens 0 source).map Token.text := by
    rw [symbols, List.map_map]
    rfl
  exact ⟨tokens 0 target, stream_start_iff.mpr rfl, symbols_respaced (htexts ▸ h)⟩

/-- A mark before a comment that has an equals sign, a slash before another comment, a character
that begins no token, and at the end a string without its closing quote. -/
theorem stream_respaced_unclosed :
    Stream "é</@\"b//".toList 0 (tokens 0 "é</@\"b//".toList) ∧
    Respaced ((tokens 0 "é</@\"b//".toList).map Token.text)
      "é < //=\n/\t//\"\n @\u3000\"b//".toList ∧
    ∃ us, Stream "é < //=\n/\t//\"\n @\u3000\"b//".toList 0 us ∧
      us.map Token.symbol = (tokens 0 "é</@\"b//".toList).map Token.symbol := by
  have htexts : (tokens 0 "é</@\"b//".toList).map Token.text =
      [['é'], ['<'], ['/'], ['@'], ['"', 'b', '/', '/']] := by decide +kernel
  have htarget : "é < //=\n/\t//\"\n @\u3000\"b//".toList =
      ['é'] ++ ([' '] ++ (['<'] ++ ([' ', '/', '/', '=', '\n'] ++ (['/'] ++
        (['\t', '/', '/', '"', '\n', ' '] ++
          (['@'] ++ (['\u3000'] ++ ['"', 'b', '/', '/']))))))) := by
    decide +kernel
  have hequals : Spacing ['/', '/', '=', '\n'] :=
    .comment (by decide : '\n' ∉ ['=']) .nil
  have hquote : Spacing ['/', '/', '"', '\n', ' '] :=
    .comment (by decide : '\n' ∉ ['"']) (.blank (by decide) .nil)
  have hts : Stream "é</@\"b//".toList 0 (tokens 0 "é</@\"b//".toList) := stream_start_iff.mpr rfl
  have hrespaced : Respaced ((tokens 0 "é</@\"b//".toList).map Token.text)
      "é < //=\n/\t//\"\n @\u3000\"b//".toList := by
    rw [htexts, htarget]
    exact .cons (.mk (by decide) .nil) (.cons (.mk (by decide) hequals)
      (.cons (.mk (by decide) hquote) (.cons (.mk (by decide) .nil) .last)))
  exact ⟨hts, hrespaced, stream_respaced hts hrespaced⟩

end StackScript
