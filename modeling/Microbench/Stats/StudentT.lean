import Microbench.Stats.Scalar

/-!
# Critical values of Student's t distribution

A fixed table of one-sided critical values: a row for each count of degrees of
freedom from one to a hundred, then one for all larger counts.  The values are
looked up and never computed, so error bars do not depend on a machine.

## Main definitions

* `StudentT.quantiles` — the one-sided quantiles that the columns stand for.
* `StudentT.table` — the rows, in thousandths.
* `StudentT.critical`, `StudentT.twoSided` — look up one-sided quantiles and two-sided confidences.
-/

namespace Microbench.StudentT

variable {α : Type} [Scalar α]

/-- A number of thousandths. -/
def thousandths (n : Nat) : α := Scalar.ofCount n / Scalar.ofCount 1000

/-- The one-sided quantiles that the columns stand for, in thousandths, ascending. -/
def quantiles : List Nat := [900, 950, 975, 990, 995, 999]

/-- The number of degrees of freedom from which on all share the last row. -/
def lastRow : Nat := 101

/-- The critical values in thousandths, a row for each count of degrees of freedom. -/
def table : Array (Array Nat) := #[
  #[3078, 6314, 12706, 31821, 63657, 318313],
  #[1886, 2920, 4303, 6965, 9925, 22327],
  #[1638, 2353, 3182, 4541, 5841, 10215],
  #[1533, 2132, 2776, 3747, 4604, 7173],
  #[1476, 2015, 2571, 3365, 4032, 5893],
  #[1440, 1943, 2447, 3143, 3707, 5208],
  #[1415, 1895, 2365, 2998, 3499, 4782],
  #[1397, 1860, 2306, 2896, 3355, 4499],
  #[1383, 1833, 2262, 2821, 3250, 4296],
  #[1372, 1812, 2228, 2764, 3169, 4143],
  #[1363, 1796, 2201, 2718, 3106, 4024],
  #[1356, 1782, 2179, 2681, 3055, 3929],
  #[1350, 1771, 2160, 2650, 3012, 3852],
  #[1345, 1761, 2145, 2624, 2977, 3787],
  #[1341, 1753, 2131, 2602, 2947, 3733],
  #[1337, 1746, 2120, 2583, 2921, 3686],
  #[1333, 1740, 2110, 2567, 2898, 3646],
  #[1330, 1734, 2101, 2552, 2878, 3610],
  #[1328, 1729, 2093, 2539, 2861, 3579],
  #[1325, 1725, 2086, 2528, 2845, 3552],
  #[1323, 1721, 2080, 2518, 2831, 3527],
  #[1321, 1717, 2074, 2508, 2819, 3505],
  #[1319, 1714, 2069, 2500, 2807, 3485],
  #[1318, 1711, 2064, 2492, 2797, 3467],
  #[1316, 1708, 2060, 2485, 2787, 3450],
  #[1315, 1706, 2056, 2479, 2779, 3435],
  #[1314, 1703, 2052, 2473, 2771, 3421],
  #[1313, 1701, 2048, 2467, 2763, 3408],
  #[1311, 1699, 2045, 2462, 2756, 3396],
  #[1310, 1697, 2042, 2457, 2750, 3385],
  #[1309, 1696, 2040, 2453, 2744, 3375],
  #[1309, 1694, 2037, 2449, 2738, 3365],
  #[1308, 1692, 2035, 2445, 2733, 3356],
  #[1307, 1691, 2032, 2441, 2728, 3348],
  #[1306, 1690, 2030, 2438, 2724, 3340],
  #[1306, 1688, 2028, 2434, 2719, 3333],
  #[1305, 1687, 2026, 2431, 2715, 3326],
  #[1304, 1686, 2024, 2429, 2712, 3319],
  #[1304, 1685, 2023, 2426, 2708, 3313],
  #[1303, 1684, 2021, 2423, 2704, 3307],
  #[1303, 1683, 2020, 2421, 2701, 3301],
  #[1302, 1682, 2018, 2418, 2698, 3296],
  #[1302, 1681, 2017, 2416, 2695, 3291],
  #[1301, 1680, 2015, 2414, 2692, 3286],
  #[1301, 1679, 2014, 2412, 2690, 3281],
  #[1300, 1679, 2013, 2410, 2687, 3277],
  #[1300, 1678, 2012, 2408, 2685, 3273],
  #[1299, 1677, 2011, 2407, 2682, 3269],
  #[1299, 1677, 2010, 2405, 2680, 3265],
  #[1299, 1676, 2009, 2403, 2678, 3261],
  #[1298, 1675, 2008, 2402, 2676, 3258],
  #[1298, 1675, 2007, 2400, 2674, 3255],
  #[1298, 1674, 2006, 2399, 2672, 3251],
  #[1297, 1674, 2005, 2397, 2670, 3248],
  #[1297, 1673, 2004, 2396, 2668, 3245],
  #[1297, 1673, 2003, 2395, 2667, 3242],
  #[1297, 1672, 2002, 2394, 2665, 3239],
  #[1296, 1672, 2002, 2392, 2663, 3237],
  #[1296, 1671, 2001, 2391, 2662, 3234],
  #[1296, 1671, 2000, 2390, 2660, 3232],
  #[1296, 1670, 2000, 2389, 2659, 3229],
  #[1295, 1670, 1999, 2388, 2657, 3227],
  #[1295, 1669, 1998, 2387, 2656, 3225],
  #[1295, 1669, 1998, 2386, 2655, 3223],
  #[1295, 1669, 1997, 2385, 2654, 3220],
  #[1295, 1668, 1997, 2384, 2652, 3218],
  #[1294, 1668, 1996, 2383, 2651, 3216],
  #[1294, 1668, 1995, 2382, 2650, 3214],
  #[1294, 1667, 1995, 2382, 2649, 3213],
  #[1294, 1667, 1994, 2381, 2648, 3211],
  #[1294, 1667, 1994, 2380, 2647, 3209],
  #[1293, 1666, 1993, 2379, 2646, 3207],
  #[1293, 1666, 1993, 2379, 2645, 3206],
  #[1293, 1666, 1993, 2378, 2644, 3204],
  #[1293, 1665, 1992, 2377, 2643, 3202],
  #[1293, 1665, 1992, 2376, 2642, 3201],
  #[1293, 1665, 1991, 2376, 2641, 3199],
  #[1292, 1665, 1991, 2375, 2640, 3198],
  #[1292, 1664, 1990, 2374, 2640, 3197],
  #[1292, 1664, 1990, 2374, 2639, 3195],
  #[1292, 1664, 1990, 2373, 2638, 3194],
  #[1292, 1664, 1989, 2373, 2637, 3193],
  #[1292, 1663, 1989, 2372, 2636, 3191],
  #[1292, 1663, 1989, 2372, 2636, 3190],
  #[1292, 1663, 1988, 2371, 2635, 3189],
  #[1291, 1663, 1988, 2370, 2634, 3188],
  #[1291, 1663, 1988, 2370, 2634, 3187],
  #[1291, 1662, 1987, 2369, 2633, 3185],
  #[1291, 1662, 1987, 2369, 2632, 3184],
  #[1291, 1662, 1987, 2368, 2632, 3183],
  #[1291, 1662, 1986, 2368, 2631, 3182],
  #[1291, 1662, 1986, 2368, 2630, 3181],
  #[1291, 1661, 1986, 2367, 2630, 3180],
  #[1291, 1661, 1986, 2367, 2629, 3179],
  #[1291, 1661, 1985, 2366, 2629, 3178],
  #[1290, 1661, 1985, 2366, 2628, 3177],
  #[1290, 1661, 1985, 2365, 2627, 3176],
  #[1290, 1661, 1984, 2365, 2627, 3175],
  #[1290, 1660, 1984, 2365, 2626, 3175],
  #[1290, 1660, 1984, 2364, 2626, 3174],
  #[1282, 1645, 1960, 2326, 2576, 3090]]

/-- The column of a quantile among columns from the one at `index` on: the last one whose
quantile is not above it, or `none` if there is no next one to compare with. -/
def columnFrom (quantile : α) (index : Nat) : List Nat → Option Nat
  | low :: high :: rest =>
    if !Scalar.less quantile (thousandths low) && Scalar.less quantile (thousandths high) then
      some index
    else columnFrom quantile (index + 1) (high :: rest)
  | _ => none

/-- The column of a quantile: the last one whose quantile is not above it, the first one
for what is below them all, and the last one for what is not a number. -/
def column (quantile : α) : Nat :=
  match columnFrom quantile 0 quantiles with
  | some index => index
  | none => if Scalar.less quantile (thousandths 900) then 0 else quantiles.length - 1

/-- The row of a count of degrees of freedom. -/
def row (freedom : Nat) : Nat := min freedom lastRow - 1

/-- An entry of the table, in thousandths. -/
def entry (row column : Nat) : Nat := (table.getD row #[]).getD column 0

/-- The critical value of a one-sided quantile. -/
def critical (quantile : α) (freedom : Nat) : α :=
  if freedom = 0 then Scalar.undefined else thousandths (entry (row freedom) (column quantile))

/-- The multiplier for a two-sided confidence. -/
def twoSided (confidence : α) (freedom : Nat) : α :=
  let one := Scalar.ofCount 1
  critical (one - (one - confidence) / Scalar.ofCount 2) freedom

end Microbench.StudentT
