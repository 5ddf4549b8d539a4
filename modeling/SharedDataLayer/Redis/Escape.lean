import SharedDataLayer.Redis.Search
import SharedDataLayer.Spec.Sys

/-!
# The search pattern of a key prefix

`escapeRedisSearchPatternCharacters` searches and inserts in one string. An iteration puts a
backslash before the character that was found; the search goes on behind that character, which is
now one place further on.

* `ends_escapeFrom`: the loop is left, and has made the string longer by one in each iteration.
* `length_flatMap_escapeChar`: how many characters the escaped string has.
* `prefixPattern_exact`: the loop, its result, and what `KEYS` finds with it.
-/

namespace Sdl
namespace Redis

open Spec

/-- The variables of the loop. `none` is `std::string::npos`. -/
structure EscapeLoop where
  stringToProcess : Bytes
  foundPosition : Option Nat
  deriving DecidableEq

namespace EscapeLoop

/-- Before the loop. -/
def start (stringToProcess : Bytes) : EscapeLoop :=
  ⟨stringToProcess, findFirstOf stringToProcess redisSearchPatternCharacters 0⟩

/-- One iteration, if there is one more. -/
def step (l : EscapeLoop) : Option EscapeLoop :=
  match l.foundPosition with
  | none => none
  | some foundPosition =>
    let stringToProcess := l.stringToProcess.insertIdx foundPosition (chr '\\')
    some ⟨stringToProcess, findFirstOf stringToProcess redisSearchPatternCharacters
      (foundPosition + 2)⟩

end EscapeLoop

/-- From any position on, the loop is left with the result of `escapeFrom`; each iteration inserts
one character. -/
theorem ends_escapeFrom (s : Bytes) (pos : Nat) : ∃ n,
    Ends EscapeLoop.step ⟨s, findFirstOf s redisSearchPatternCharacters pos⟩ n
    ⟨escapeFrom s pos, none⟩ ∧
      (escapeFrom s pos).length = s.length + n := by
  induction s, pos using escapeFrom.induct with
  | case1 s pos hnone =>
    rw [escapeFrom_none hnone, hnone]
    exact ⟨0, .left rfl, rfl⟩
  | case2 s pos found hfound ih =>
    obtain ⟨n, hends, hlength⟩ := ih
    rw [escapeFrom_some hfound, hfound]
    refine ⟨n + 1, .iteration rfl hends, ?_⟩
    have hlt := (findFirstOf_lt hfound).2
    rw [hlength, List.length_insertIdx_of_le_length (by omega)]
    omega

/-- The special characters are counted twice. -/
theorem length_flatMap_escapeChar (p : Bytes) :
    (p.flatMap escapeChar).length = p.length +
    p.countP (redisSearchPatternCharacters.contains ·) := by
  induction p with
  | nil => rfl
  | cons c p ih =>
    rw [List.flatMap_cons, List.length_append, ih, List.countP_cons, escapeChar]
    split
    · simp only [List.length_cons, List.length_nil]
      omega
    · simp only [List.length_cons, List.length_nil]
      omega

/-- **Pattern escaping.** For every prefix, `KEYS` with the escaped prefix and a star matches
exactly the strings that start with it. The loop is left after one iteration for each special
character, in one state only, and the result is the prefix with one backslash before each of these
characters. -/
theorem prefixPattern_exact (p : Bytes) :
    (∀ s, globMatches (escapeRedisSearchPatternCharacters p ++ [chr '*']) s = true ↔ p <+: s) ∧
    (∀ n l, Ends EscapeLoop.step (.start p) n l ↔
      n = p.countP (redisSearchPatternCharacters.contains ·) ∧
      l = ⟨escapeRedisSearchPatternCharacters p, none⟩) ∧
    escapeRedisSearchPatternCharacters p =
      p.flatMap fun c => if c ∈ str "*?[]\\" then [chr '\\', c] else [c] := by
  have hescaped := escapeRedisSearchPatternCharacters_eq p
  refine ⟨fun s => globMatches_prefix, fun n l => ?_, ?_⟩
  · obtain ⟨m, hends, hlength⟩ := ends_escapeFrom p 0
    have hm : m = p.countP (redisSearchPatternCharacters.contains ·) := by
      have hlength : (escapeRedisSearchPatternCharacters p).length = p.length + m := hlength
      rw [hescaped, length_flatMap_escapeChar] at hlength
      omega
    constructor
    · intro h
      obtain ⟨hn, hl⟩ := h.unique hends
      exact ⟨hn.trans hm, hl⟩
    · rintro ⟨rfl, rfl⟩
      rw [← hm]
      exact hends
  · rw [hescaped]
    refine congrArg (p.flatMap ·) (funext fun c => ?_)
    simp only [escapeChar, redisSearchPatternCharacters, List.contains_iff_mem]

-- The last prefix of `RedisSearchPatternCharactersAreCorrectlyEscapedInKeyPrefixSearch`.
example : escapeRedisSearchPatternCharacters (str "?*some[]Known[*?\\]Key\\*Prefix****") =
    str "\\?\\*some\\[\\]Known\\[\\*\\?\\\\\\]Key\\\\\\*Prefix\\*\\*\\*\\*" := by
  rw [escapeRedisSearchPatternCharacters_eq]
  decide +kernel

end Redis
end Sdl
