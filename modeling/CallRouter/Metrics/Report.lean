import CallRouter.Json.Basic
import CallRouter.Metrics.Basic
import CallRouter.Number.Decimal
import CallRouter.Text.Numeral

namespace CallRouter.Metrics

def escaped (label : List Char) : List Char :=
  label.flatMap fun
    | '\\' => ['\\', '\\']
    | '"' => ['\\', '"']
    | '\n' => ['\\', 'n']
    | c => [c]

def labelText (name value : String) : List Char :=
  name.toList ++ '=' :: '"' :: escaped value.toList ++ ['"']

def line (name : String) (labels : List (List Char)) (number : List Char) : List Char :=
  let braced := if labels.isEmpty then [] else '\x7b' :: [','].intercalate labels ++ ['\x7d']
  name.toList ++ braced ++ ' ' :: number ++ ['\n']

def natText (n : Nat) : List Char := Nat.toDigits 10 n

def amountText : Amount → List Char
  | .finite value => value.plainText
  | .infinite negative => (if negative then ['-'] else []) ++ ['i', 'n', 'f']

def histogramLines (name : String) (labels : List (List Char)) (histogram : Histogram) :
    List Char :=
  let bounded := (Histogram.bounds.zip histogram.buckets).flatMap fun (bound, count) =>
    line (name ++ "_bucket") (labels ++ [labelText "le" (String.ofList bound.plainText)])
      (natText count)
  bounded ++
    line (name ++ "_bucket") (labels ++ [labelText "le" "+Inf"]) (natText histogram.count) ++
    line (name ++ "_sum") labels (amountText histogram.sum) ++
    line (name ++ "_count") labels (natText histogram.count)

def labels (metrics : Metrics) (metric : Metric) : List String :=
  match metric.label? with
  | none => [""]
  | some _ =>
    let used : List String := match metric.form with
      | .histogram => metrics.durations.keys
      | _ => (metrics.amounts.keys.filter fun key => key.1 == metric).map (·.2)
    used.mergeSort Dict.inOrder

def sample (metrics : Metrics) (metric : Metric) (label : String) : List Char :=
  let labels := match metric.label? with
    | none => []
    | some name => [labelText name label]
  match metric.form with
  | .histogram =>
    histogramLines metric.name labels ((metrics.durations.find? label).getD .empty)
  | _ => line metric.name labels (amountText (metrics.amount metric label))

def families (metrics : Metrics) : List Metric :=
  Metric.all.filter fun metric => !(metrics.labels metric).isEmpty

def family (metrics : Metrics) (metric : Metric) : List Char :=
  ("# HELP " ++ metric.name ++ " " ++ metric.help ++ "\n# TYPE " ++ metric.name ++ " " ++
      metric.form.name ++ "\n").toList ++
    (metrics.labels metric).flatMap (metrics.sample metric)

def report (metrics : Metrics) : String :=
  String.ofList (metrics.families.flatMap metrics.family)

structure Response where
  status : Nat
  contentType : String
  body : String
  deriving DecidableEq, Repr

def behindHost : List Char → List Char
  | ':' :: '/' :: '/' :: rest => rest.dropWhile (· != '/')
  | _ :: rest => behindHost rest
  | [] => []

def pathOf (target : String) : String :=
  let chars := target.toList.takeWhile fun c => c != '?' && c != '#'
  String.ofList (if chars.head? == some '/' then chars else behindHost chars)

def respond (metrics : Metrics) (target : String) : Response :=
  match pathOf target with
  | "/metrics" => ⟨200, "text/plain; version=0.0.4; charset=utf-8", metrics.report⟩
  | "/health" | "/healthz" => ⟨200, "text/plain", "OK"⟩
  | _ => ⟨404, "text/plain", "Not Found"⟩

end CallRouter.Metrics
