import FileProvider.Proofs.Text.Offsets
import FileProvider.Proofs.Uri.Addressed
import FileProvider.Proofs.Uri.Parts
import Mathlib.Data.List.Flatten

/-!
# Paths that come back

The provider's URI of a path puts a scheme in front of it, and the path of a URI is read in three steps: the host
goes, then the first whole segment that names the bundle, then a slash at the end. Each step keeps a text as it is
or makes it shorter, and says of which texts it does what. So a path comes back from its own URI exactly if every
step keeps it, and what comes back otherwise is shorter.
-/

set_option autoImplicit false

namespace FileProvider

namespace Text

variable {name s t r : List Char}

/-! ## Steps that keep a text or shorten it -/

/-- Whether `t` is `s` under the condition `p`, and `s` with something taken out of it otherwise. -/
def KeptIf (p : Prop) (s t : List Char) : Prop := p ∧ t = s ∨ ¬ p ∧ t.Sublist s ∧ t.length < s.length

theorem KeptIf.sublist {p : Prop} (h : KeptIf p s t) : t.Sublist s := by
  rcases h with ⟨-, rfl⟩ | ⟨-, hsub, -⟩
  · exact List.Sublist.refl t
  · exact hsub

/-- Of two steps, the second of which is taken on what the first one has left, both keep the text or one of them
shortens it. -/
theorem KeptIf.trans {p q q' : Prop} (hs : KeptIf p s t) (ht : KeptIf q' t r) (hq : t = s → (q' ↔ q)) :
    KeptIf (p ∧ q) s r := by
  rcases hs with ⟨hp, rfl⟩ | ⟨hp, hsub, hlength⟩
  · have hsame := hq rfl
    rcases ht with ⟨hq', rfl⟩ | ⟨hq', hsub, hlength⟩
    · exact .inl ⟨⟨hp, hsame.mp hq'⟩, rfl⟩
    · exact .inr ⟨fun h => hq' (hsame.mpr h.2), hsub, hlength⟩
  · exact .inr ⟨fun h => hp h.1, ht.sublist.trans hsub, Nat.lt_of_le_of_lt ht.sublist.length_le hlength⟩

/-- What is shorter in characters is shorter in bytes, if nothing but characters was taken out. -/
theorem length_bytes_lt (h : t.Sublist s) (hlength : t.length < s.length) : (bytes t).length < (bytes s).length := by
  have hsub : (bytes t).Sublist (bytes s) := h.flatMap String.utf8EncodeChar
  refine Nat.lt_of_le_of_ne hsub.length_le fun heq => ?_
  rw [bytes_injective (hsub.eq_of_length heq)] at hlength
  exact Nat.lt_irrefl _ hlength

/-- Leaving out the first segment of a name keeps the texts that hold no such segment. -/
theorem LessFirst.keptIf (h : LessFirst name s t) : KeptIf (∀ before after, ¬ SegmentAt name s before after) s t := by
  rcases h with ⟨before, after, hat, -, rfl⟩ | ⟨hnone, rfl⟩
  · refine .inr ⟨fun hnone => hnone before after hat, ?_, ?_⟩
    · rw [hat.1]
      exact (List.sublist_append_right _ after).append_left before
    · rw [hat.1]
      simp only [List.length_append, List.length_cons]
      omega
  · exact .inl ⟨hnone, rfl⟩

/-- Dropping a slash from the end keeps the texts that do not end with one. -/
theorem chopSlash_keptIf (s : List Char) : KeptIf (s.getLast? ≠ some '/') s (chopSlash s) := by
  rcases chopSlash_cases s with h | h
  · exact .inl h
  · have hlast : s.getLast? = some '/' := by rw [h, List.getLast?_concat]
    have hlength := congrArg List.length h
    rw [List.length_append, List.length_singleton] at hlength
    refine .inr ⟨not_not_intro hlast, ?_, by omega⟩
    conv_rhs => rw [h]
    exact List.sublist_append_left _ _

end Text

namespace Uri

variable {bundle : String}

/-- Leaving out the host keeps the texts that begin with a slash or hold none. -/
theorem behindHost_keptIf (rest : List Char) :
    Text.KeptIf (rest.head? = some '/' ∨ '/' ∉ rest) rest (behindHost rest) := by
  by_cases hrooted : rest.head? = some '/' ∨ '/' ∉ rest
  · exact .inl ⟨hrooted, if_pos hrooted⟩
  · obtain ⟨hhead, hslash⟩ := not_or.mp hrooted
    have hdrop : behindHost rest = rest.dropWhile (· ≠ '/') := if_neg hrooted
    rw [hdrop]
    refine .inr ⟨hrooted, (List.dropWhile_suffix _).sublist, ?_⟩
    -- The host is not empty, because the text does not begin with a slash.
    cases rest with
    | nil => exact absurd List.not_mem_nil hslash
    | cons c rest =>
      have hc : c ≠ '/' := fun heq => hhead (heq ▸ rfl)
      rw [List.dropWhile_cons_of_pos (by simpa using hc)]
      exact Nat.lt_succ_of_le (List.dropWhile_suffix _).length_le

/-- What is read of the provider's URI of a path. -/
theorem toList_pathOf_ofPath (bundle path : String) :
    (pathOf bundle (ofPath path)).toList
      = Text.chopSlash (withoutSegment bundle (behindHost path.toList)) := by
  have hscheme : ¬ separator.toList <:+: providerScheme.toList := by decide
  refine toList_pathOf (splits_iff.mpr ⟨?_, hscheme⟩) bundle
  rw [ofPath, String.toList_append, String.toList_append, List.append_assoc]

/-- Whether a path comes back from the provider's URI of it: it begins with a slash or holds none, it does not end
with a slash, and the bundle stands nowhere in it between a slash and another one, or the end. -/
structure Returns (bundle path : List Char) : Prop where
  rooted : path.head? = some '/' ∨ '/' ∉ path
  foreign : ∀ before after, ¬ Text.SegmentAt bundle path before after
  no_slash : path.getLast? ≠ some '/'

/-- Reading the provider's URI of a path keeps the paths that come back, and shortens the others. -/
theorem pathOf_ofPath_keptIf (hbundle : bundle ≠ "") (path : String) :
    Text.KeptIf (Returns bundle.toList path.toList) path.toList (pathOf bundle (ofPath path)).toList := by
  have hhost := behindHost_keptIf path.toList
  have hsegment := (withoutSegment_lessFirst hbundle (behindHost path.toList)).keptIf
  have hslash := Text.chopSlash_keptIf (withoutSegment bundle (behindHost path.toList))
  have hkept := (hhost.trans hsegment fun heq => by rw [heq]).trans hslash fun heq => by rw [heq]
  rw [toList_pathOf_ofPath]
  refine hkept.imp (And.imp_left fun h => ⟨h.1.1, h.1.2, h.2⟩) (And.imp_left fun hnot h => ?_)
  exact hnot ⟨⟨h.rooted, h.foreign⟩, h.no_slash⟩

/-- The path of the provider's URI of a path is that path exactly if the path is one that comes back; otherwise it
is another one, and shorter, by characters as well as by bytes. -/
theorem pathOf_ofPath (hbundle : bundle ≠ "") (path : String) :
    (pathOf bundle (ofPath path) = path ↔ Returns bundle.toList path.toList) ∧
      (¬ Returns bundle.toList path.toList → pathOf bundle (ofPath path) ≠ path ∧
        (pathOf bundle (ofPath path)).length < path.length ∧
        (Text.bytes (pathOf bundle (ofPath path)).toList).length < (Text.bytes path.toList).length) := by
  rcases pathOf_ofPath_keptIf hbundle path with ⟨hreturns, hsame⟩ | ⟨hnot, hsub, hlength⟩
  · exact ⟨iff_of_true (String.toList_inj.mp hsame) hreturns, fun h => absurd hreturns h⟩
  · have hother : pathOf bundle (ofPath path) ≠ path := by
      intro heq
      rw [heq] at hlength
      exact Nat.lt_irrefl _ hlength
    exact ⟨iff_of_false hother hnot, fun _ => ⟨hother, hlength, Text.length_bytes_lt hsub hlength⟩⟩

/-- A longer segment does not keep a path from coming back; a bundle does, even one that is more than a segment, and so
does a slash at the end. -/
theorem pathOf_ofPath_shorter :
    pathOf "app" (ofPath "/apple/ü") = "/apple/ü" ∧ Returns "app".toList "/apple/ü".toList ∧
      pathOf "a/b" (ofPath "/x/a/b/") = "/x" ∧ ¬ Returns "a/b".toList "/x/a/b/".toList ∧
      "/x".length < "/x/a/b/".length := by
  have happ : "app" ≠ "" := by decide
  have htwo : "a/b" ≠ "" := by decide
  have hkept : pathOf "app" (ofPath "/apple/ü") = "/apple/ü" := by decide +kernel
  have hleft : pathOf "a/b" (ofPath "/x/a/b/") = "/x" := by decide +kernel
  obtain ⟨hiff, hshorter⟩ := pathOf_ofPath htwo "/x/a/b/"
  rw [hleft] at hiff hshorter
  have hnot : ¬ Returns "a/b".toList "/x/a/b/".toList := mt hiff.mpr (by decide)
  exact ⟨hkept, (pathOf_ofPath happ "/apple/ü").1.mp hkept, hleft, hnot, (hshorter hnot).2.1⟩

end Uri

end FileProvider
