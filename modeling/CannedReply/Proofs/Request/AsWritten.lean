import CannedReply.Proofs.Request.FieldMap
import CannedReply.Proofs.Target.Cleaning
import CannedReply.Routes
/-!
# Routes named by their requests

A request is routed by its method as it stands in the request line, and by a path that stands in
its target, unless the target is in absolute form and its path is broken by tabs or line ends.
Main statement: `route_as_written_iff`.
-/

namespace CannedReply.Proofs.Request.AsWritten

open CannedReply.Proofs.Latin1
open CannedReply.Proofs.Request.FieldMap
open CannedReply.Proofs.Request.Head
open CannedReply.Proofs.Target.Cleaning
open CannedReply.Proofs.Target.Forms

/-- The target is in absolute form and has no path behind its authority. -/
def HasNoPath (target : Bytes) : Prop :=
  ∃ scheme authority query, AbsoluteForm target scheme authority [] query

/-- The path stands in the target as it is, or is the slash for a target that has none. -/
def StandsIn (path target : Bytes) : Prop := path <:+: target ∨ path = [47] ∧ HasNoPath target

/-- A run of the target that reads as `path` once tabs and line breaks are left out. -/
def Spells (run path target : Bytes) : Prop := run <:+: target ∧ run.filter stays = path

/-- The target is in absolute form, and every run that spells its path holds a tab or a line
break. -/
structure Broken (path target : Bytes) : Prop where
  form : ∃ scheme authority query, AbsoluteForm target scheme authority path query
  broken : ∀ run, Spells run path target → ∃ b ∈ run, b ∈ Bytes.ofText "\t\r\n"

variable {target scheme authority path query : Bytes}

/-- The path of an absolute form is spelled in it. -/
theorem exists_spelling (h : AbsoluteForm target scheme authority path query) :
    ∃ run, Spells run path target := by
  have hpart := isInfix_cleaned h
  rw [cleaned_eq] at hpart
  obtain ⟨run, hrun, hspelled⟩ := exists_run hpart
  exact ⟨run, hrun.trans (List.dropWhile_suffix _).isInfix, hspelled⟩

theorem stays_of_mem_path (h : AbsoluteForm target scheme authority path query) {b : UInt8}
    (hb : b ∈ path) : stays b = true := by
  obtain ⟨run, -, rfl⟩ := exists_spelling h
  exact (List.mem_filter.1 hb).2

theorem slash_mem (h : AbsoluteForm target scheme authority path query) : 47 ∈ target := by
  apply cleaned_subset
  rw [h.spelled]
  simp

theorem isInfix_of_standsIn (h : StandsIn path target) : path <:+: target := by
  obtain hpart | ⟨rfl, scheme, authority, query, hform⟩ := h
  · exact hpart
  · obtain ⟨front, back, hslash⟩ := List.append_of_mem (slash_mem hform)
    exact ⟨front, back, by rw [hslash, List.append_assoc]; rfl⟩

theorem not_broken_of_isInfix (h : path <:+: target) : ¬ Broken path target := by
  rintro ⟨⟨scheme, authority, query, hform⟩, hbroken⟩
  have hself : path.filter stays = path :=
    List.filter_eq_self.2 fun b hb => stays_of_mem_path hform hb
  obtain ⟨b, hb, hbreak⟩ := hbroken path ⟨h, hself⟩
  exact stays_iff.1 (stays_of_mem_path hform hb) hbreak

theorem isInfix_of_not_broken (hform : AbsoluteForm target scheme authority path query)
    (h : ¬ Broken path target) : path <:+: target := by
  by_contra hnot
  refine h ⟨⟨scheme, authority, query, hform⟩, fun run ⟨hrun, hspelled⟩ => ?_⟩
  by_contra hkept
  -- A run without tabs and line breaks spells itself.
  have hself : run.filter stays = run :=
    List.filter_eq_self.2 fun b hb => stays_iff.2 fun hbreak => hkept ⟨b, hb, hbreak⟩
  exact hnot (by rwa [← hspelled, hself])

/-- The path of a target stands in it exactly if it is not broken. -/
theorem standsIn_iff (h : Target.path target = .ok path) :
    StandsIn path target ↔ ¬ Broken path target := by
  constructor
  · exact fun hstands => not_broken_of_isInfix (isInfix_of_standsIn hstands)
  · intro hwhole
    obtain ⟨-, rfl⟩ | ⟨-, ⟨scheme, authority, found, query, hform, rfl⟩ | rfl⟩ := path_cases h
    · exact .inl (beforeQuery_isInfix target)
    · by_cases hempty : found = []
      · subst hempty
        exact .inr ⟨if_pos rfl, scheme, authority, query, hform⟩
      · rw [if_neg hempty] at hwhole ⊢
        exact .inl (isInfix_of_not_broken hform hwhole)
    · exact .inl List.infix_rfl

/-! ## Routes -/

theorem isInfix_decode {part s : Bytes} :
    (Latin1.decode part).toList <:+: (Latin1.decode s).toList ↔ part <:+: s := by
  rw [Latin1.decode, Latin1.decode, String.toList_ofList, String.toList_ofList]
  constructor
  · intro h
    obtain ⟨run, hrun, hsame⟩ := List.infix_map_iff.1 h
    have hinj : ∀ b c, Char.ofUInt8 b = Char.ofUInt8 c → b = c := by
      intro b c hbc
      rw [← Latin1.byteOf_ofUInt8 b, hbc, Latin1.byteOf_ofUInt8]
    rwa [(List.map_inj_right hinj).1 hsame]
  · exact fun h => h.map Char.ofUInt8

theorem standsIn_decode :
    ((Latin1.decode path).toList <:+: (Latin1.decode target).toList ∨
        Latin1.decode path = "/" ∧ HasNoPath target) ↔ StandsIn path target := by
  have hslash : Latin1.decode path = "/" ↔ path = [47] :=
    decode_inj (t := [47])
  rw [isInfix_decode, hslash]
  rfl

/-- The path of a target stands in it, or is the slash for a target without a path, unless it is
broken; a broken path is still spelled in its target.  So whatever route a request with that target
is resolved to, it carries the method of the request line and, unless the path is broken, a path
that stands in the target character for character. -/
theorem route_as_written_iff (h : Target.path target = .ok path) :
    (StandsIn path target ↔ ¬ Broken path target) ∧
      (Broken path target → ∃ run, Spells run path target) ∧
      ∀ (routes : Routes) (message : Bytes) (r : Request) (handler : Handler),
        Request.parse message = .ok r → r.target = Latin1.decode target →
        routes.resolve? r.method r.path = some handler →
          ∃ parts lines, HasRequestLine message parts lines ∧ parts.target = target ∧
            ((r.method, r.path), handler) ∈ routes.table.entries ∧
            r.method = Latin1.decode parts.method ∧ r.path = Latin1.decode path ∧
            (r.path.toList <:+: r.target.toList ∨ r.path = "/" ∧ HasNoPath target ↔
              ¬ Broken path target) := by
  refine ⟨standsIn_iff h, ?_, fun routes message r handler hparse htarget hroute => ?_⟩
  · rintro ⟨⟨scheme, authority, query, hform⟩, -⟩
    exact exists_spelling hform
  · obtain ⟨parts, lines, path', hline, hpath, -, rfl⟩ := parse_eq_ok_iff.1 hparse
    obtain rfl : parts.target = target := decode_inj.1 htarget
    obtain rfl : path' = path := Except.ok.inj (hpath.symm.trans h)
    refine ⟨parts, lines, hline, rfl, OrderedMap.get?_eq_some_iff.1 hroute, rfl, rfl, ?_⟩
    exact standsIn_decode.trans (standsIn_iff h)

/-- A tab in front of the path does not break it. -/
theorem route_as_written_behind_tab :
    StandsIn (Bytes.ofText "/a") (Bytes.ofText "http://h\t/a?b") ∧
      ∃ parts lines,
        HasRequestLine (Bytes.ofText "GET http://h\t/a?b HTTP/1.1\r\n\r\n") parts lines ∧
          Latin1.decode parts.method = "GET" := by
  let routes : Routes := ⟨OrderedMap.empty.insert ("GET", "/a") (.serveReply [65])⟩
  let target := Bytes.ofText "http://h\t/a?b"
  let r := requestOf ⟨Bytes.ofText "GET", target, .http11⟩ (Bytes.ofText "/a") []
  have hpath : Target.path target = .ok (Bytes.ofText "/a") := rfl
  have hwhole : ¬ Broken (Bytes.ofText "/a") target :=
    not_broken_of_isInfix ⟨Bytes.ofText "http://h\t", Bytes.ofText "?b", rfl⟩
  have hparse : Request.parse (Bytes.ofText "GET http://h\t/a?b HTTP/1.1\r\n\r\n") = .ok r := rfl
  obtain ⟨hstands, -, hroutes⟩ := route_as_written_iff hpath
  obtain ⟨parts, lines, hline, -, -, hmethod, -⟩ := hroutes routes _ r _ hparse rfl rfl
  exact ⟨hstands.2 hwhole, parts, lines, hline, hmethod.symm⟩

/-- A tab inside the path is left out of it, so the target leads to a route that it does not
name. -/
theorem tab_inside_path_is_left_out :
    Target.path (Bytes.ofText "http://h/v1/chat/comple\ttions") =
        .ok (Bytes.ofText Routes.triggerPath) ∧
      ¬ StandsIn (Bytes.ofText Routes.triggerPath)
        (Bytes.ofText "http://h/v1/chat/comple\ttions") := by
  refine ⟨rfl, ?_⟩
  rintro (hpart | ⟨hslash, -⟩)
  · exact absurd hpart (by decide)
  · exact absurd hslash (by decide)

end CannedReply.Proofs.Request.AsWritten
