import SheetMill.Text.Kinds

/-!
# Upper and lower case

Most characters follow a regular pattern: within a span, every character or every second one moves
by a fixed distance. The others are listed one by one.
-/

namespace SheetMill.Text

/-- Spans of characters, each by the first and the last one, the step from one of its characters to
the next, and the distance of each to its counterpart in the other case. -/
abbrev CaseRuns := List (Nat × Nat × Nat × Int)

def CaseRuns.counterpart? (runs : CaseRuns) (c : Char) : Option Char :=
  (runs.find? fun (first, last, step, _) =>
      first ≤ c.toNat && c.toNat ≤ last && (c.toNat - first) % step == 0).map
    fun (_, _, _, distance) => Char.ofNat ((c.toNat : Int) + distance).toNat

def CaseRuns.sources (runs : CaseRuns) (c : Char) : List Char :=
  runs.filterMap fun (first, last, step, distance) =>
    let code := (c.toNat : Int) - distance
    if first ≤ code ∧ code ≤ last ∧ (code - first) % step = 0 then some (Char.ofNat code.toNat)
    else none

def CaseRuns.mirrored (runs : CaseRuns) : CaseRuns :=
  runs.map fun (first, last, step, distance) =>
    (((first : Int) + distance).toNat, ((last : Int) + distance).toNat, step, -distance)

/-- Single letters, each with the distance to its counterpart. -/
def CaseRuns.ofLetters (letters : List (Nat × Int)) : CaseRuns :=
  letters.map fun (c, distance) => (c, c, 1, distance)

/-- Spans, each by its first and its last small letter, in which a capital stands before every small
letter. -/
def alternatingRuns : CaseRuns := .map (fun (first, last) => (first, last, 2, -1)) <| Spans.packed [
  0x1bf21d26d19491cd121182f1c91334c9194151182934f3152921f28131233121412571615131234525d21f2535f489,
  0x13c3516341f1b2b3341419231a7d31d28f3b2b5d7cd9d143181cb1a12165615bbc11a8c1bf1b2ad1cba9]

/-- Spans of small letters, each by the first and the last one and the distance of the capitals. -/
def blockRuns : CaseRuns := .zipWith (fun (first, last) distance => (first, last, 1, distance))
  (Spans.packed [
    0x202040218183a6181818181a618185c8a61bf8325b5d994e489280481c92119129135f33df26a22d2588712f1cd3a1c9,
    0x4a7daca485ae88485f9d6b3f8c4c298582b9d3a59e891a87f99a4e2c8683d8e3a1da82869e21e23e26a2020])
  [-32, -32, -32, 10815, -205, -217, 130, -37, -32, -32, -63, -32, -80, -48, 3008, 3008, -8, 8, 8,
    8, 8, 8, 8, 74, 86, 100, 128, 112, 126, 8, 8, 8, -16, -26, -48, -7264, -38864, -32, -40,
    -40, -64, -32, -32, -34]

/-- Small letters and their capitals that are each other's counterparts. -/
def caseRuns : CaseRuns := alternatingRuns ++ blockRuns ++ [
  (8017, 8023, 2, 8), (66967, 67003, 2, -39), (66968, 66976, 2, -39), (66980, 66992, 2, -39),
  (66996, 67000, 2, -39)] ++ .ofLetters [
  (255, 121), (384, 195), (405, 97), (410, 163), (414, 130), (447, 56), (454, -2), (457, -2),
  (460, -2), (477, -79), (499, -2), (592, 10783), (593, 10780), (594, 10782), (595, -210),
  (596, -206), (601, -202), (603, -203), (604, 42319), (608, -205), (609, 42315), (611, -207),
  (613, 42280), (614, 42308), (616, -209), (617, -211), (618, 42308), (619, 10743), (620, 42305),
  (623, -211), (625, 10749), (626, -213), (629, -214), (637, 10727), (640, -218), (642, 42307),
  (643, -218), (647, 42282), (648, -218), (649, -69), (652, -71), (658, -219), (669, 42261),
  (670, 42258), (940, -38), (972, -64), (983, -8), (1010, 7), (1011, -116), (1231, -15),
  (7545, 35332), (7549, 3814), (7566, 35384), (8165, 7), (8526, -28), (11365, -10795),
  (11366, -10792), (11559, -7264), (11565, -7264), (42900, 48), (43859, -928), (67004, -39)]

def upperRuns : CaseRuns := caseRuns ++ [(7299, 7300, 1, -6242)] ++ .ofLetters [
  (181, 743), (305, -232), (383, -300), (453, -1), (456, -1), (459, -1), (498, -1), (837, 84),
  (962, -31), (976, -62), (977, -57), (981, -47), (982, -54), (1008, -86), (1009, -80), (1013, -96),
  (7296, -6254), (7297, -6253), (7298, -6244), (7301, -6243), (7302, -6236), (7303, -6181),
  (7304, 35266), (7835, -59), (8126, -7205)]

def lowerRuns : CaseRuns := caseRuns.mirrored ++ [
  (8072, 8079, 1, -8), (8088, 8095, 1, -8), (8104, 8111, 1, -8)] ++ .ofLetters [
  (304, -199), (453, 1), (456, 1), (459, 1), (498, 1), (1012, -60), (7838, -7615), (8124, -9),
  (8140, -9), (8188, -9), (8486, -7517), (8490, -8383), (8491, -8262)]

/-- Greek letters with an iota below, in rows of eight, each by its first letter and by the capital of
that without the iota. -/
def iotaExpansions : List (Nat × List Nat) :=
  [(8064, 7944), (8072, 7944), (8080, 7976), (8088, 7976), (8096, 8040), (8104, 8040)].flatMap
    fun (first, capital) => (List.range 8).map fun i => (first + i, [capital + i, 921])

def upperExpansions : List (Nat × List Nat) := iotaExpansions ++ [
  (223, [83, 83]), (329, [700, 78]), (496, [74, 780]), (912, [921, 776, 769]),
  (944, [933, 776, 769]), (1415, [1333, 1362]), (7830, [72, 817]), (7831, [84, 776]),
  (7832, [87, 778]), (7833, [89, 778]), (7834, [65, 702]), (8016, [933, 787]),
  (8018, [933, 787, 768]), (8020, [933, 787, 769]), (8022, [933, 787, 834]), (8114, [8122, 921]),
  (8115, [913, 921]), (8116, [902, 921]), (8118, [913, 834]), (8119, [913, 834, 921]),
  (8124, [913, 921]), (8130, [8138, 921]), (8131, [919, 921]), (8132, [905, 921]),
  (8134, [919, 834]), (8135, [919, 834, 921]), (8140, [919, 921]), (8146, [921, 776, 768]),
  (8147, [921, 776, 769]), (8150, [921, 834]), (8151, [921, 776, 834]), (8162, [933, 776, 768]),
  (8163, [933, 776, 769]), (8164, [929, 787]), (8166, [933, 834]), (8167, [933, 776, 834]),
  (8178, [8186, 921]), (8179, [937, 921]), (8180, [911, 921]), (8182, [937, 834]),
  (8183, [937, 834, 921]), (8188, [937, 921]), (64256, [70, 70]), (64257, [70, 73]),
  (64258, [70, 76]), (64259, [70, 70, 73]), (64260, [70, 70, 76]), (64261, [83, 84]),
  (64262, [83, 84]), (64275, [1348, 1350]), (64276, [1348, 1333]), (64277, [1348, 1339]),
  (64278, [1358, 1350]), (64279, [1348, 1341])]

def upperChar (c : Char) : List Char :=
  match upperExpansions.lookup c.toNat with
  | some codes => codes.map Char.ofNat
  | none => [(upperRuns.counterpart? c).getD c]

def upper (s : String) : String := String.ofList (s.toList.flatMap upperChar)

def lowerOne (c : Char) : Char := (lowerRuns.counterpart? c).getD c

def lowerChar (c : Char) : List Char :=
  if c.toNat = 304 then ['i', Char.ofNat 775] else [lowerOne c]

def lower (s : String) : String := String.ofList (s.toList.flatMap lowerChar)

/-! ## Letters whatever their case -/

def letterForms (c : Char) : List Char :=
  let small := lowerOne c
  let upper := upperChar small
  let others := match upper with
    | [capital] => upperRuns.sources capital
    | _ => (upperExpansions.filter fun (_, codes) => codes == upper.map Char.toNat).map
        fun (code, _) => Char.ofNat code
  (small :: others).flatMap fun d => d :: lowerRuns.sources d

end SheetMill.Text
