import TensorContraction.Json.Form
import TensorContraction.Proofs.Encoding.ExactList
import TensorContraction.Proofs.Encoding.Layout
import TensorContraction.Proofs.Encoding.Number
import TensorContraction.Proofs.Encoding.Rearrangement
import TensorContraction.Proofs.Encoding.RoundTrip
import TensorContraction.Proofs.Encoding.Tracking
import TensorContraction.Proofs.Index.Coverage
import TensorContraction.Proofs.Index.Sorting
import TensorContraction.Proofs.Json.RoundTrip
import TensorContraction.Proofs.Memo
import TensorContraction.Proofs.Numeral
import TensorContraction.Proofs.Packing
import TensorContraction.Proofs.Problem.Blame
import TensorContraction.Proofs.Problem.Exchange
import TensorContraction.Proofs.Problem.Formula
import TensorContraction.Proofs.Problem.Precedence
import TensorContraction.Proofs.Problem.Refusals
import TensorContraction.Proofs.Problem.Relisting
import TensorContraction.Proofs.Problem.TotalOrder
import TensorContraction.Proofs.Problem.Volume
import TensorContraction.Proofs.Session
import TensorContraction.Ranking
import TensorContraction.Session
