/-!
Special forms: operators that receive the expressions of their call unevaluated.
-/

namespace HostLisp

inductive Form where
  | sequence
  | block
  | label
  | setGlobal
  | cond
  | lambda
  | define
  | threadFirst
  | threadLast
  | quote
  | eval
  | doc
  | dumpScope
  | inspect
deriving DecidableEq

namespace Form

def name : Form → String
  | sequence => "do"
  | block => "let"
  | label => "label"
  | setGlobal => "global"
  | cond => "cond"
  | lambda => "lambda"
  | define => "defn"
  | threadFirst => "->"
  | threadLast => "->>"
  | quote => "quote"
  | eval => "eval"
  | doc => "doc"
  | dumpScope => "dump-scope"
  | inspect => "inspect"

def usage : Form → String
  | sequence => "Usage: (do expr1 expr2 ...)"
  | block => "Usage: (let expr1 expr2 ...)"
  | label => "Usage: (label <symbol> expr)"
  | setGlobal => "Usage: (global <symbol> expr)"
  | cond => "Usage: (cond (test1 action1) (test2 action2)...)"
  | lambda =>
    "Defines a lambda.\nUsage: (lambda [params] body)\nwhere params: a vector of symbols\n" ++
      "      body  : one or more s-expressions"
  | define => "Defines a named function\nUsage: (defn <name> [params] body)"
  | threadFirst => "Usage: (-> x (f a) (g b)); threads x as first argument"
  | threadLast => "Usage: (->> x (f a) (g b)); threads x as last argument"
  | quote => "Usage: (quote expr); returns expr unevaluated"
  | eval => "Usage: (eval expr); evaluates a quoted expression"
  | doc => "Displays documentation for given symbol if available.\nUsage: (doc <symbol>)"
  | dumpScope => "Formats and displays the entire scope"
  | inspect => "Usage: (inspect expr)"

def core : List Form :=
  [sequence, block, label, setGlobal, cond, lambda, define, threadFirst, threadLast, quote, eval,
    doc, dumpScope, inspect]

end Form

end HostLisp
